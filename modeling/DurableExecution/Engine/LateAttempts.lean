import DurableExecution.Engine.ClosedDeliveries

/-
This file proves what is left for the attempts of a step once one of them has recorded the
step's result.
-/

namespace DurableExecution.Engine

open Workflow (JsValue RecordedError WorkflowEvent Instant)
open Transaction

section Attempts

/-- The events that attempts of this step write. -/
def isAttemptOf (stepId : String) : WorkflowEvent → Bool
  | .stepCompleted other _ | .stepFailed other .. | .stepAttemptFailed other .. => other == stepId
  | _ => false

/-- The events that end a step. -/
def isStepResult : WorkflowEvent → Bool
  | .stepCompleted .. | .stepFailed .. => true
  | _ => false

def Database.attemptEvents (db : Database) (runId : RunId) (stepId : String) : List WorkflowEvent :=
  (db.log runId).filter (isAttemptOf stepId)

def Database.letters (db : Database) (runId : RunId) (stepId : String) : List Nat :=
  (db.deadLetters.filter fun letter => letter.runId == runId && letter.stepId == stepId).map DeadLetterRow.id

/-- What attempts of a step write is as it was. -/
structure Untouched (runId : RunId) (stepId : String) (db db' : Database) : Prop where
  recorded : db'.hasRecordedResult runId stepId = db.hasRecordedResult runId stepId
  events : db'.attemptEvents runId stepId = db.attemptEvents runId stepId
  letters : db'.letters runId stepId = db.letters runId stepId

/-- The log has one event that ends a step, exactly when the step has a recorded result. -/
def Database.EndsSteps (db : Database) : Prop := ∀ runId stepId,
  ((db.attemptEvents runId stepId).filter isStepResult).length =
    if db.hasRecordedResult runId stepId = true then 1 else 0

variable {runId : RunId} {stepId : String} {db db' : Database} {now : Instant}

theorem Untouched.refl (db : Database) : Untouched runId stepId db db := ⟨rfl, rfl, rfl⟩

theorem Untouched.trans (one two three : Database) (first : Untouched runId stepId one two)
    (second : Untouched runId stepId two three) : Untouched runId stepId one three :=
  ⟨second.recorded.trans first.recorded, second.events.trans first.events, second.letters.trans first.letters⟩

theorem Untouched.ofTables (events : db'.events = db.events) (results : db'.stepResults = db.stepResults)
    (letters : db'.deadLetters = db.deadLetters) : Untouched runId stepId db db' where
  recorded := by rw [Database.hasRecordedResult, results]; rfl
  events := by rw [Database.attemptEvents, Database.log, Database.storedEvents, events]; rfl
  letters := by rw [Database.letters, letters]; rfl

theorem isAttemptOf_event {event : WorkflowEvent} (apart : isAttemptEvent event = false) : isAttemptOf stepId event = false := by
  cases event <;> first | rfl | cases apart

theorem appended_attemptEvents (rows : List EventRow)
    (apart : ∀ row ∈ rows, row.runId = runId → isAttemptOf stepId row.event = false) :
    ({ db with events := db.events ++ rows } : Database).attemptEvents runId stepId = db.attemptEvents runId stepId := by
  simp only [Database.attemptEvents, Database.log, Database.storedEvents, List.filter_append, List.map_append]
  have none' : ((rows.filter fun row => row.runId == runId).map EventRow.event).filter (isAttemptOf stepId) = [] := by
    refine List.filter_eq_nil_iff.mpr fun event listed => ?_
    obtain ⟨row, kept, rfl⟩ := List.mem_map.mp listed
    obtain ⟨listed, own⟩ := List.mem_filter.mp kept
    rw [apart row listed (by simpa using own)]
    exact Bool.false_ne_true
  rw [none', List.append_nil]

theorem untouched_frame : Frame (fun event => isAttemptEvent event = false) (Untouched runId stepId) where
  control _ := id
  refl := .refl
  trans := .trans
  appended _ rows quiet :=
    ⟨rfl, appended_attemptEvents rows fun row listed _ => isAttemptOf_event (quiet row listed), rfl⟩
  projected _ _ _ _ _ _ := .ofTables rfl rfl rfl
  limited _ _ _ _ := .ofTables rfl rfl rfl
  opened _ _ _ := .ofTables rfl rfl rfl
  tasked _ _ _ _ _ _ := .ofTables rfl rfl rfl
  withdrawn _ _ := .ofTables rfl rfl rfl
  timed _ _ := .ofTables rfl rfl rfl
  decided _ _ := .ofTables rfl rfl rfl

theorem Database.EndsSteps.keep (ends : db.EndsSteps) (untouched : ∀ runId stepId, Untouched runId stepId db db') : db'.EndsSteps := by
  intro runId stepId
  rw [(untouched runId stepId).events, (untouched runId stepId).recorded]
  exact ends runId stepId

end Attempts

section Writes

variable {runId : RunId} {stepId : String} {db : Database} {now : Instant}

theorem hasRecordedResult_iff : db.hasRecordedResult runId stepId = true ↔
    ∃ row ∈ db.stepResults, row.runId = runId ∧ row.stepId = stepId := by
  simp [Database.hasRecordedResult]

theorem named_false {other : RunId} {otherStep : String} (apart : ¬ (runId = other ∧ stepId = otherStep)) :
    (other == runId && otherStep == stepId) = false := by
  by_contra both
  rw [Bool.not_eq_false, Bool.and_eq_true, beq_iff_eq, beq_iff_eq] at both
  exact apart ⟨both.1.symm, both.2.symm⟩

theorem toStepEvent_isStepResult (input : RecordStepResultInput) : isStepResult (toStepEvent input) = true := by
  unfold toStepEvent
  split <;> rfl

theorem toStepEvent_isAttemptOf (input : RecordStepResultInput) : isAttemptOf stepId (toStepEvent input) = (input.stepId == stepId) := by
  unfold toStepEvent
  split <;> rfl

theorem appended_one_attemptEvents (other : RunId) (event : WorkflowEvent) :
    (db.appended other [event] now).attemptEvents runId stepId = db.attemptEvents runId stepId ++
      if runId = other ∧ isAttemptOf stepId event = true then [event] else [] := by
  rw [Database.attemptEvents, Database.appended_log, List.filter_append, Database.attemptEvents]
  by_cases own : runId = other
  · by_cases same : isAttemptOf stepId event = true
    · rw [if_pos own, if_pos ⟨own, same⟩, List.filter_singleton, same]
      rfl
    · rw [if_pos own, if_neg fun both => same both.2, List.filter_singleton, Bool.eq_false_iff.mpr same]
      rfl
  · rw [if_neg own, if_neg fun both => own both.1]
    rfl

theorem stepRecorded_attemptEvents (options : RecorderOptions) (input : RecordStepResultInput) :
    (db.stepRecorded options input).attemptEvents runId stepId = db.attemptEvents runId stepId ++
      if runId = input.runId ∧ stepId = input.stepId then [toStepEvent input] else [] := by
  refine (appended_one_attemptEvents input.runId (toStepEvent input)).trans ?_
  congr 1
  refine if_congr (and_congr Iff.rfl ?_) rfl rfl
  rw [toStepEvent_isAttemptOf, beq_iff_eq, eq_comm]

theorem stepRecorded_hasRecordedResult (options : RecorderOptions) (input : RecordStepResultInput) :
    (db.stepRecorded options input).hasRecordedResult runId stepId =
      (db.hasRecordedResult runId stepId || (input.runId == runId && input.stepId == stepId)) := by
  simp [Database.hasRecordedResult, Database.stepRecorded]

/-- The first result of a step is the only one. -/
theorem Database.EndsSteps.stepRecorded (ends : db.EndsSteps) (options : RecorderOptions) (input : RecordStepResultInput)
    (first : ∀ result ∈ db.stepResults, ¬ (result.runId = input.runId ∧ result.stepId = input.stepId)) :
    (db.stepRecorded options input).EndsSteps := by
  intro runId stepId
  rw [stepRecorded_attemptEvents, List.filter_append, List.length_append, ends runId stepId,
    stepRecorded_hasRecordedResult]
  by_cases own : runId = input.runId ∧ stepId = input.stepId
  · obtain ⟨rfl, rfl⟩ := own
    have absent : ¬ db.hasRecordedResult input.runId input.stepId = true := by
      rintro recorded
      obtain ⟨row, listed, same⟩ := hasRecordedResult_iff.mp recorded
      exact first row listed same
    simp [absent, toStepEvent_isStepResult]
  · simp [own, named_false own]

theorem untouched_stepRecorded (options : RecorderOptions) (input : RecordStepResultInput)
    (apart : ¬ (runId = input.runId ∧ stepId = input.stepId)) : Untouched runId stepId db (db.stepRecorded options input) := by
  refine ⟨?_, ?_, rfl⟩
  · rw [stepRecorded_hasRecordedResult, named_false apart, Bool.or_false]
  · rw [stepRecorded_attemptEvents, if_neg apart, List.append_nil]

/-- The database after a failed attempt was noted. -/
def Database.attemptNoted (db : Database) (input : RecordAttemptFailureInput) (now : Instant) : Database :=
  { db.appended input.runId
      [.stepAttemptFailed input.stepId input.attempt (attemptError input.error) input.retryAt] now with
    stepAttempts := db.stepAttempts ++ [⟨input.runId, input.stepId, input.attempt, input.error, input.retryAt⟩] }

/-- The failure of this attempt was noted before. -/
def Database.notes (db : Database) (runId : RunId) (stepId : String) (attempt : Nat) : Prop :=
  ∃ row ∈ db.stepAttempts, row.runId = runId ∧ row.stepId = stepId ∧ row.attempt = attempt

theorem recordFailureOn_writes (input : RecordAttemptFailureInput) : Ensures (· = db) (recordFailureOn input now) fun _ db' => db' = db ∨
      db' = db.attemptNoted input now ∧ ¬ db.notes input.runId input.stepId input.attempt := by
  refine .keeps .looked fun _ => ?_
  refine .then (insertStepAttempt_spec _) ?_
  rintro inserted _ (⟨rfl, same⟩ | ⟨rfl, rfl, -, absent⟩)
  · exact .pure fun _ unchanged => .inl (unchanged.trans same)
  · refine .then appendNext_spec.discard ?_
    rintro _ _ ⟨-, rfl, -⟩
    refine .pure ?_
    rintro _ rfl
    exact .inr ⟨rfl, fun ⟨row, listed, same⟩ => absent row listed same⟩

theorem untouched_attemptNoted (input : RecordAttemptFailureInput) (apart : ¬ (runId = input.runId ∧ stepId = input.stepId)) :
    Untouched runId stepId db (db.attemptNoted input now) := by
  refine ⟨rfl, ?_, rfl⟩
  refine (appended_one_attemptEvents input.runId _).trans ?_
  have other : ¬ (runId = input.runId ∧ isAttemptOf stepId (.stepAttemptFailed input.stepId input.attempt
      (attemptError input.error) input.retryAt) = true) :=
    fun both => apart ⟨both.1, (beq_iff_eq.mp both.2).symm⟩
  rw [if_neg other, List.append_nil]

theorem Database.EndsSteps.attemptNoted (ends : db.EndsSteps) (input : RecordAttemptFailureInput) :
    (db.attemptNoted input now).EndsSteps := by
  intro runId stepId
  have events : (db.appended input.runId [.stepAttemptFailed input.stepId input.attempt (attemptError input.error)
    input.retryAt] now).attemptEvents runId stepId = _ := appended_one_attemptEvents input.runId _
  have silent : ((if runId = input.runId ∧ isAttemptOf stepId (.stepAttemptFailed input.stepId input.attempt
      (attemptError input.error) input.retryAt) = true
    then [WorkflowEvent.stepAttemptFailed input.stepId input.attempt (attemptError input.error) input.retryAt]
    else []).filter isStepResult).length = 0 := by
    split <;> rfl
  rw [show (db.attemptNoted input now).attemptEvents runId stepId = _ from events, List.filter_append,
    List.length_append, silent, ends runId stepId]
  rfl

/-- The lease is over. -/
def Database.lost (db : Database) (taskId leaseToken : Nat) : Prop :=
  ∀ task ∈ db.tasks, task.isHeldBy taskId leaseToken = false

theorem lost_updateTasks {taskId leaseToken : Nat} (lost : db.lost taskId leaseToken) (change : TaskRow → TaskRow) :
    ((db.updateTasks (·.isHeldBy taskId leaseToken) change).1 == 1) = false := by
  have none' : db.tasks.countP (·.isHeldBy taskId leaseToken) = 0 :=
    List.countP_eq_zero.mpr fun task listed => by simp [lost task listed]
  rw [Database.updateTasks, none']
  rfl

/-- What storing a dead letter with the acknowledgement of its task writes. -/
theorem addAndAckOn_writes (input : AddDeadLetterInput) (lease : TaskLease) (options : RecorderOptions) (result : RecordStepResultInput) :
    Ensures (· = db) (addAndAckOn input lease (discard (recordStepResultOn options result)) now) fun _ db' =>
      ∃ middle, (middle = db ∨ middle = db.stepRecorded options result ∧
          ∀ row ∈ db.stepResults, ¬ (row.runId = result.runId ∧ row.stepId = result.stepId)) ∧
        ¬ db.lost lease.taskId lease.leaseToken ∧ db'.events = middle.events ∧ db'.stepResults = middle.stepResults ∧
        (db'.deadLetters = db.deadLetters ∨ ∃ letter, letter.runId = input.runId ∧ letter.stepId = input.stepId ∧
          db'.deadLetters = db.deadLetters ++ [letter]) := by
  have recorded : Ensures (· = db) (discard (recordStepResultOn options result)) fun _ middle =>
      (middle = db ∨ middle = db.stepRecorded options result ∧
        ∀ row ∈ db.stepResults, ¬ (row.runId = result.runId ∧ row.stepId = result.stepId)) := by
    refine (recordStepResultOn_spec result).discard.mono (fun _ => id) ?_
    rintro _ middle ⟨answer, ⟨-, same⟩ | ⟨-, same, -, first⟩⟩
    · exact .inl same
    · exact .inr ⟨same, first⟩
  refine .then recorded fun _ middle outcome => ?_
  have tables : middle.tasks = db.tasks ∧ middle.deadLetters = db.deadLetters := by
    rcases outcome with rfl | ⟨rfl, -⟩ <;> exact ⟨rfl, rfl⟩
  refine .through (fun acked db' => acked = (middle.ack lease.taskId lease.leaseToken).1 ∧
    db' = (middle.ack lease.taskId lease.leaseToken).2) (.statement ?_) fun acked => ?_
  · rintro store answer store' rfl answered
    cases answered
    exact ⟨rfl, rfl⟩
  · refine .each ?_
    rintro _ ⟨rfl, rfl⟩
    split
    · next acked =>
        have held : ¬ db.lost lease.taskId lease.leaseToken := by
          intro lost
          have lost' : middle.lost lease.taskId lease.leaseToken := by rwa [Database.lost, tables.1]
          rw [show (middle.ack lease.taskId lease.leaseToken).1 = false from lost_updateTasks lost' _] at acked
          cases acked
        refine .statement ?_
        rintro store answer store' rfl inserted
        split at inserted
        · cases inserted
          exact ⟨middle, outcome, held, rfl, rfl, .inl tables.2⟩
        · split at inserted
          · cases inserted
            refine ⟨middle, outcome, held, rfl, rfl, .inr ⟨⟨middle.nextId, input.namespaceId, input.runId, input.stepId,
              input.queueName, input.payload, input.attempts, input.error, now, none⟩, rfl, rfl, ?_⟩⟩
            exact congrArg (· ++ [_]) tables.2
          · cases inserted
    · exact .raise

end Writes

section Effects

variable {runId : RunId} {stepId : String} {surroundings : Surroundings} {delivery : StepDelivery} {db db' : Database}

theorem letters_other {letter : DeadLetterRow} (letters : db'.deadLetters = db.deadLetters ++ [letter])
    (apart : ¬ (runId = letter.runId ∧ stepId = letter.stepId)) : db'.letters runId stepId = db.letters runId stepId := by
  rw [Database.letters, letters, List.filter_append, List.filter_singleton, named_false apart]
  simp [Database.letters]

/-- The steps of a delivery leave every other step alone. -/
theorem StepEffect.untouched (effect : StepEffect surroundings delivery db db')
    (apart : ¬ (runId = delivery.task.runId ∧ stepId = delivery.stepId)) : Untouched runId stepId db db' := by
  cases effect with
  | unchanged => exact .refl db
  | acked | nacked | woken => exact .ofTables rfl rfl rfl
  | recorded attempt outcome =>
    have spec : Ensures (· = db) (recordStepResultOn (recorderAt delivery.task surroundings.now)
        (delivery.resultOf attempt outcome)) fun _ db' => Untouched runId stepId db db' := by
      refine (recordStepResultOn_spec _).mono (fun _ => id) ?_
      rintro _ _ (⟨-, rfl⟩ | ⟨-, rfl, -⟩)
      · exact .refl _
      · exact untouched_stepRecorded _ _ apart
    rcases withTransaction_cases spec surroundings.budget db rfl with ⟨fault, failed⟩ | ⟨_, _, done, untouched⟩
    · rw [recordStepResult, failed]
      exact .refl db
    · rw [recordStepResult, done]
      exact untouched
  | noted attempt error retryAt =>
    rcases withTransaction_cases (recordFailureOn_writes _) surroundings.budget db rfl with
      ⟨fault, failed⟩ | ⟨_, _, done, rfl | ⟨rfl, -⟩⟩
    · rw [failed]
      exact .refl db
    · rw [done]
      exact .refl _
    · rw [done]
      exact untouched_attemptNoted _ apart
  | parked attempt error =>
    rcases withTransaction_cases (addAndAckOn_writes _ _ _ _) surroundings.budget db rfl with
      ⟨fault, failed⟩ | ⟨_, _, done, middle, recorded, -, events, results, letters⟩
    · rw [addAndAck, failed]
      exact .refl db
    · rw [addAndAck, done]
      have before : Untouched runId stepId db middle := by
        rcases recorded with rfl | ⟨rfl, -⟩
        · exact .refl _
        · exact untouched_stepRecorded _ _ apart
      have tables : middle.deadLetters = db.deadLetters := by
        rcases recorded with rfl | ⟨rfl, -⟩ <;> rfl
      refine ⟨?_, ?_, ?_⟩
      · rw [Database.hasRecordedResult, results]
        exact before.recorded
      · rw [Database.attemptEvents, Database.log, Database.storedEvents, events]
        exact before.events
      · rcases letters with same | ⟨letter, run, step, added⟩
        · rw [Database.letters, same]
          rfl
        · refine letters_other added ?_
          rw [run, step]
          exact apart

theorem Database.EndsSteps.ofTables (ends : db.EndsSteps) (events : db'.events = db.events)
    (results : db'.stepResults = db.stepResults) : db'.EndsSteps := by
  intro runId stepId
  have same := ends runId stepId
  rw [Database.attemptEvents, Database.log, Database.storedEvents, events, Database.hasRecordedResult, results]
  exact same

/-- Every step of a delivery keeps one terminal event for each recorded result. -/
theorem StepEffect.endsSteps (effect : StepEffect surroundings delivery db db') (ends : db.EndsSteps) : db'.EndsSteps := by
  cases effect with
  | unchanged => exact ends
  | acked | nacked | woken => exact ends.ofTables rfl rfl
  | recorded attempt outcome =>
    rcases withTransaction_cases (recordStepResultOn_spec _) surroundings.budget db rfl with
      ⟨fault, failed⟩ | ⟨_, _, done, ⟨-, rfl⟩ | ⟨-, rfl, -, first⟩⟩
    · rw [recordStepResult, failed]
      exact ends
    · rw [recordStepResult, done]
      exact ends
    · rw [recordStepResult, done]
      exact ends.stepRecorded _ _ first
  | noted attempt error retryAt =>
    rcases withTransaction_cases (recordFailureOn_writes _) surroundings.budget db rfl with
      ⟨fault, failed⟩ | ⟨_, _, done, rfl | ⟨rfl, -⟩⟩
    · rw [failed]
      exact ends
    · rw [done]
      exact ends
    · rw [done]
      exact ends.attemptNoted _
  | parked attempt error =>
    rcases withTransaction_cases (addAndAckOn_writes _ _ _ _) surroundings.budget db rfl with
      ⟨fault, failed⟩ | ⟨_, _, done, middle, recorded, -, events, results, -⟩
    · rw [addAndAck, failed]
      exact ends
    · rw [addAndAck, done]
      refine Database.EndsSteps.ofTables ?_ events results
      rcases recorded with rfl | ⟨rfl, first⟩
      · exact ends
      · exact ends.stepRecorded _ _ first

/-- Results are never taken back. -/
theorem StepEffect.remembers (effect : StepEffect surroundings delivery db db')
    (recorded : db.hasRecordedResult runId stepId = true) : db'.hasRecordedResult runId stepId = true := by
  cases effect with
  | unchanged | acked | nacked | woken => exact recorded
  | recorded attempt outcome =>
    rcases withTransaction_cases (recordStepResultOn_spec _) surroundings.budget db rfl with
      ⟨fault, failed⟩ | ⟨_, _, done, ⟨-, rfl⟩ | ⟨-, rfl, -⟩⟩
    · rw [recordStepResult, failed]
      exact recorded
    · rw [recordStepResult, done]
      exact recorded
    · rw [recordStepResult, done, stepRecorded_hasRecordedResult, recorded]
      rfl
  | noted attempt error retryAt =>
    rcases withTransaction_cases (recordFailureOn_writes _) surroundings.budget db rfl with
      ⟨fault, failed⟩ | ⟨_, _, done, rfl | ⟨rfl, -⟩⟩
    · rw [failed]
      exact recorded
    · rw [done]
      exact recorded
    · rw [done]
      exact recorded
  | parked attempt error =>
    rcases withTransaction_cases (addAndAckOn_writes _ _ _ _) surroundings.budget db rfl with
      ⟨fault, failed⟩ | ⟨_, _, done, middle, first, -, events, results, -⟩
    · rw [addAndAck, failed]
      exact recorded
    · rw [addAndAck, done, Database.hasRecordedResult, results]
      rcases first with rfl | ⟨rfl, -⟩
      · exact recorded
      · exact (stepRecorded_hasRecordedResult _ _).trans (by rw [recorded]; rfl)

end Effects

section Advancing

variable {known : String → Option StepDefinition} {surroundings : Surroundings} {delivery : StepDelivery} {db : Database}

/-- A result is recorded when the step has none, or the database stays as it is. -/
theorem recordStepResult_answers (db : Database) (options : RecorderOptions) (input : RecordStepResultInput) (budget : Option Nat) :
    (∃ fault, recordStepResult options input budget db = (.error fault, db)) ∨
      (∃ answer, recordStepResult options input budget db = (.ok answer, db) ∧ answer.recorded = false) ∨
      ∃ answer, recordStepResult options input budget db = (.ok answer, db.stepRecorded options input) ∧
        answer.recorded = true ∧ db.hasRecordedResult input.runId input.stepId = false := by
  have spec : Ensures (· = db) (recordStepResultOn options input) _ := recordStepResultOn_spec input
  rcases withTransaction_cases spec budget db rfl with
    failed | ⟨answer, _, done, ⟨unrecorded, rfl⟩ | ⟨recorded, rfl, -, first⟩⟩
  · exact .inl failed
  · exact .inr (.inl ⟨answer, done, unrecorded⟩)
  · refine .inr (.inr ⟨answer, done, recorded, Bool.eq_false_iff.mpr fun found => ?_⟩)
    obtain ⟨row, listed, same⟩ := hasRecordedResult_iff.mp found
    exact first row listed same

/-- A delivery that is about to report a result of its own has recorded it. -/
def StepDelivery.Owns (delivery : StepDelivery) : Prop :=
  match delivery.phase with
  | .acknowledging _ true | .settling _ true => delivery.records = true
  | _ => True

/-- A failing delivery writes while its step has no result, or it finds nothing to change:
its attempt is noted already, or its lease is over. -/
def StepDelivery.InTime (surroundings : Surroundings) (delivery : StepDelivery) (db : Database) : Prop :=
  db.hasRecordedResult delivery.task.runId delivery.stepId = true →
    match delivery.phase with
    | .caught attempt _ => surroundings.aborted = true ∨ db.notes delivery.task.runId delivery.stepId attempt
    | .retrying .. | .givingUp _ _ .maxAttemptsExhausted => db.lost delivery.task.id delivery.task.leaseToken
    | _ => True

/-- What a delivery reports once its step has a result. -/
def StepDelivery.ReportsLate (delivery other : StepDelivery) : Prop :=
  other.report = delivery.report ∨ other.report = some .alreadyRecorded ∨ other.report = some .leaseLost ∨
    other.records = true

theorem StepDelivery.noteFailure_late (attempt : Nat) (error : RecordedError) (retryAt : Option Instant)
    (next : StepPhase) (noted : db.notes delivery.task.runId delivery.stepId attempt) :
    (delivery.noteFailure surroundings attempt error retryAt next db).2 = db ∧
      (delivery.noteFailure surroundings attempt error retryAt next db).1.report = delivery.report := by
  have writes : Ensures (· = db) (recordFailureOn ⟨delivery.task.runId, delivery.stepId, attempt, error, retryAt⟩
    surroundings.now) _ := recordFailureOn_writes _
  rcases withTransaction_cases writes surroundings.budget db rfl with
    ⟨fault, failed⟩ | ⟨_, _, done, rfl | ⟨-, fresh⟩⟩
  · simp only [StepDelivery.noteFailure, failed]
    exact ⟨trivial, rfl⟩
  · simp only [StepDelivery.noteFailure, done]
    exact ⟨trivial, rfl⟩
  · exact absurd noted fresh

/-- Once its step has a result, a delivery in time leaves the step alone. -/
theorem StepDelivery.advance_late (owns : delivery.Owns) (inTime : delivery.InTime surroundings db)
    (recorded : db.hasRecordedResult delivery.task.runId delivery.stepId = true) :
    Untouched delivery.task.runId delivery.stepId db (delivery.advance known surroundings db).2 ∧
      delivery.ReportsLate (delivery.advance known surroundings db).1 := by
  have held := inTime recorded
  unfold StepDelivery.Owns at owns
  cases phase : delivery.phase with
  | delivered =>
    simp only [StepDelivery.advance, phase]
    split
    · exact ⟨.refl db, .inr (.inr (.inl rfl))⟩
    · split_ifs <;> exact ⟨.refl db, .inl rfl⟩
  | resultFound =>
    simp only [StepDelivery.advance, phase]
    split
    · exact ⟨.refl db, .inl rfl⟩
    · exact ⟨.ofTables rfl rfl rfl, .inr (.inl rfl)⟩
  | unrecorded =>
    simp only [StepDelivery.advance, phase]
    split <;> exact ⟨.refl db, .inl rfl⟩
  | numbered attempt =>
    simp only [StepDelivery.advance, phase]
    split <;> exact ⟨.refl db, .inl rfl⟩
  | handling attempt =>
    simp only [StepDelivery.advance, phase]
    split
    · exact ⟨.refl db, .inl rfl⟩
    · split <;> exact ⟨.refl db, .inl rfl⟩
  | succeeded attempt result =>
    rcases recordStepResult_answers db (recorderAt delivery.task surroundings.now)
      (delivery.resultOf attempt (.completed result)) surroundings.budget with
      ⟨fault, answered⟩ | ⟨answer, answered, -⟩ | ⟨answer, -, -, absent⟩
    · simp only [StepDelivery.advance, phase, answered]
      exact ⟨.refl db, .inl rfl⟩
    · simp only [StepDelivery.advance, phase, answered]
      exact ⟨.refl db, .inl rfl⟩
    · exact absurd recorded (Bool.eq_false_iff.mp absent)
  | acknowledging attempt own =>
    rw [phase] at owns
    simp only [StepDelivery.advance, phase]
    split
    · exact ⟨.refl db, .inl rfl⟩
    · refine ⟨.ofTables rfl rfl rfl, ?_⟩
      cases own with
      | true => exact .inr (.inr (.inr owns))
      | false =>
        split
        · exact .inr (.inl rfl)
        · exact .inr (.inr (.inl rfl))
  | caught attempt error =>
    rw [phase] at held
    simp only [StepDelivery.advance, phase]
    split
    · exact ⟨.refl db, .inr (.inr (.inl rfl))⟩
    · next going =>
        have noted := held.resolve_left going
        split
        · split
          · exact ⟨.refl db, .inl rfl⟩
          · obtain ⟨same, silent⟩ := noteFailure_late attempt error _ _ noted
            exact ⟨by rw [same]; exact .refl db, .inl silent⟩
        · obtain ⟨same, silent⟩ := noteFailure_late attempt error _ _ noted
          exact ⟨by rw [same]; exact .refl db, .inl silent⟩
  | retrying attempt delayMs retryAt =>
    rw [phase] at held
    have lost : (db.nack surroundings.now delivery.task.id delivery.task.leaseToken delayMs).1 = false :=
      lost_updateTasks held _
    simp only [StepDelivery.advance, phase, lost]
    split
    · exact ⟨.refl db, .inl rfl⟩
    · exact ⟨.ofTables rfl rfl rfl, .inr (.inr (.inl rfl))⟩
  | givingUp attempt error reason =>
    cases reason with
    | nonRetryable =>
      rcases recordStepResult_answers db (recorderAt delivery.task surroundings.now)
        (delivery.resultOf attempt (.failed error false)) surroundings.budget with
        ⟨fault, answered⟩ | ⟨answer, answered, -⟩ | ⟨answer, -, -, absent⟩
      · simp only [StepDelivery.advance, phase, answered]
        exact ⟨.refl db, .inl rfl⟩
      · simp only [StepDelivery.advance, phase, answered]
        exact ⟨.refl db, .inl rfl⟩
      · exact absurd recorded (Bool.eq_false_iff.mp absent)
    | maxAttemptsExhausted =>
      rw [phase] at held
      have writes : Ensures (· = db) (addAndAckOn (deadLetterInput delivery attempt error) delivery.lease
        (discard (recordStepResultOn (recorderAt delivery.task surroundings.now)
          (delivery.resultOf attempt (.failed error true)))) surroundings.now) _ := addAndAckOn_writes _ _ _ _
      rcases withTransaction_cases writes surroundings.budget db rfl with
        ⟨fault, failed⟩ | ⟨_, _, _, _, _, going, _⟩
      · simp only [StepDelivery.advance, phase, addAndAck, failed]
        split
        · next answered => cases answered
        · next answered =>
            cases answered
            exact ⟨.refl db, .inr (.inr (.inl rfl))⟩
        · next answered =>
            cases answered
            exact ⟨.refl db, .inl rfl⟩
      · exact absurd held going
  | settling attempt own =>
    rw [phase] at owns
    simp only [StepDelivery.advance, phase]
    split
    · exact ⟨.refl db, .inl rfl⟩
    · refine ⟨.ofTables rfl rfl rfl, ?_⟩
      cases own with
      | true => exact .inr (.inr (.inr owns))
      | false => exact .inr (.inl rfl)
  | reported outcome =>
    cases outcome with
    | completed | failed | alreadyRecorded =>
      simp only [StepDelivery.advance, phase]
      split
      · exact ⟨.refl db, .inl rfl⟩
      · exact ⟨.ofTables rfl rfl rfl, .inl rfl⟩
    | retryScheduled | deadLettered | leaseLost =>
      simp only [StepDelivery.advance, phase]
      exact ⟨.refl db, .inl rfl⟩
  | rejected | returned =>
    simp only [StepDelivery.advance, phase]
    exact ⟨.refl db, .inl rfl⟩

/-- Which step of a delivery records the result of its step. -/
def StepDelivery.RecordsOnce (delivery other : StepDelivery) (db db' : Database) : Prop :=
  other.Owns ∧ (delivery.records = true → other.records = true) ∧ (other.records = true → delivery.records = true ∨
    db.hasRecordedResult delivery.task.runId delivery.stepId = false ∧
      db'.hasRecordedResult delivery.task.runId delivery.stepId = true)

theorem StepDelivery.records_answer (options : RecorderOptions) (attempt : Nat) (outcome : StepOutcome)
    {answer : RecordedStepResult} {db' : Database} {next : StepPhase}
    (own : next = .acknowledging attempt answer.recorded ∨ next = .settling attempt answer.recorded)
    (answered : recordStepResult options (delivery.resultOf attempt outcome) surroundings.budget db = (.ok answer, db')) :
    delivery.RecordsOnce { delivery with phase := next, records := delivery.records || answer.recorded } db db' := by
  rcases recordStepResult_answers db options (delivery.resultOf attempt outcome) surroundings.budget with
    ⟨fault, failed⟩ | ⟨_, same, unrecorded⟩ | ⟨_, done, recorded, absent⟩
  · cases failed.symm.trans answered
  · cases same.symm.trans answered
    refine ⟨?_, fun before => by rw [before]; rfl, fun records => .inl ?_⟩
    · rcases own with rfl | rfl <;> rw [StepDelivery.Owns, unrecorded] <;> trivial
    · rwa [unrecorded, Bool.or_false] at records
  · cases done.symm.trans answered
    refine ⟨?_, fun before => by rw [before]; rfl, fun _ => .inr ⟨absent, ?_⟩⟩
    · rcases own with rfl | rfl <;> simp [StepDelivery.Owns, recorded]
    · rw [stepRecorded_hasRecordedResult]
      simp [StepDelivery.resultOf]

theorem StepDelivery.noteFailure_records (attempt : Nat) (error : RecordedError) (retryAt : Option Instant)
    {next : StepPhase} (plain : (delivery.goTo next).Owns) :
    delivery.RecordsOnce (delivery.noteFailure surroundings attempt error retryAt next db).1 db
      (delivery.noteFailure surroundings attempt error retryAt next db).2 := by
  simp only [StepDelivery.noteFailure]
  split
  · exact ⟨plain, id, .inl⟩
  · exact ⟨trivial, id, .inl⟩

/-- Only a delivery whose transaction stores the result has recorded it. -/
theorem StepDelivery.advance_records :
    delivery.RecordsOnce (delivery.advance known surroundings db).1 db (delivery.advance known surroundings db).2 := by
  cases phase : delivery.phase with
  | delivered | unrecorded =>
    simp only [StepDelivery.advance, phase]
    split_ifs <;> exact ⟨trivial, id, .inl⟩
  | resultFound | acknowledging | retrying | settling =>
    simp only [StepDelivery.advance, phase]
    split
    · exact ⟨trivial, id, .inl⟩
    · exact ⟨trivial, id, .inl⟩
  | numbered attempt =>
    simp only [StepDelivery.advance, phase]
    split <;> exact ⟨trivial, id, .inl⟩
  | handling attempt =>
    simp only [StepDelivery.advance, phase]
    split
    · exact ⟨trivial, id, .inl⟩
    · split <;> exact ⟨trivial, id, .inl⟩
  | succeeded attempt result =>
    simp only [StepDelivery.advance, phase]
    split
    · next answered => exact records_answer _ attempt _ (.inl rfl) answered
    · exact ⟨trivial, id, .inl⟩
  | caught attempt error =>
    simp only [StepDelivery.advance, phase]
    split
    · exact ⟨trivial, id, .inl⟩
    · split
      · split
        · exact ⟨trivial, id, .inl⟩
        · exact noteFailure_records attempt error _ trivial
      · exact noteFailure_records attempt error _ trivial
  | givingUp attempt error reason =>
    cases reason with
    | nonRetryable =>
      simp only [StepDelivery.advance, phase]
      split
      · next answered => exact records_answer _ attempt _ (.inr rfl) answered
      · exact ⟨trivial, id, .inl⟩
    | maxAttemptsExhausted =>
      simp only [StepDelivery.advance, phase]
      split <;> exact ⟨trivial, id, .inl⟩
  | reported outcome =>
    cases outcome with
    | completed | failed | alreadyRecorded =>
      simp only [StepDelivery.advance, phase]
      split <;> exact ⟨trivial, id, .inl⟩
    | retryScheduled | deadLettered | leaseLost =>
      simp only [StepDelivery.advance, phase]
      exact ⟨trivial, id, .inl⟩
  | rejected | returned =>
    simp only [StepDelivery.advance, phase]
    refine ⟨?_, id, .inl⟩
    rw [StepDelivery.Owns, phase]
    trivial

end Advancing

section Worlds

variable {known : String → Option StepDefinition} {world : World} {runId : RunId} {stepId : String}

/-- Failing deliveries write in time. -/
def InTime (world : World) : Action → Prop
  | .advanceStep index surroundings => ∀ delivery, world.steps[index]? = some delivery →
      delivery.InTime surroundings world.db
  | _ => True

theorem requeue_untouched (now : Instant) (db : Database) (deadLetterId : Nat) :
    Untouched runId stepId db (db.requeue now deadLetterId) := by
  unfold Database.requeue
  split
  · exact .refl db
  · refine ⟨rfl, rfl, ?_⟩
    let change (letter : DeadLetterRow) : DeadLetterRow :=
      if letter.id = deadLetterId then { letter with requeuedAt := some now } else letter
    have kept (letter : DeadLetterRow) : (change letter).id = letter.id ∧ (change letter).runId = letter.runId ∧
        (change letter).stepId = letter.stepId := by
      unfold change
      split <;> exact ⟨rfl, rfl, rfl⟩
    have named : (fun letter : DeadLetterRow => letter.runId == runId && letter.stepId == stepId) ∘ change =
        fun letter => letter.runId == runId && letter.stepId == stepId := by
      funext letter
      simp only [Function.comp_apply, (kept letter).2]
    have ids : DeadLetterRow.id ∘ change = DeadLetterRow.id := funext fun letter => (kept letter).1
    change ((db.deadLetters.map change).filter _).map _ = _
    rw [List.filter_map, named, List.map_map, ids]
    rfl

theorem Upkeep.apply_untouched (now : Instant) (db : Database) (upkeep : Upkeep) : Untouched runId stepId db (upkeep.apply now db) := by
  cases upkeep with
  | requeue deadLetterId => exact requeue_untouched now db deadLetterId
  | _ => exact .ofTables rfl rfl rfl

theorem DecisionDelivery.advance_untouched (surroundings : Surroundings) (decided : Decided) (delivery : DecisionDelivery) (db : Database) :
    Untouched runId stepId db (delivery.advance surroundings decided db).2 :=
  delivery.advance_kept untouched_frame (fun _ _ _ _ => .ofTables rfl rfl rfl) surroundings decided db

/-- What holds between the results of steps, the log and the deliveries. -/
structure World.Tidy (world : World) : Prop where
  ends : world.db.EndsSteps
  owns : ∀ delivery ∈ world.steps, delivery.Owns
  recorders : ∀ delivery ∈ world.steps, delivery.records = true →
    world.db.hasRecordedResult delivery.task.runId delivery.stepId = true
  single : ∀ (index other : Nat) (delivery rival : StepDelivery), world.steps[index]? = some delivery →
    world.steps[other]? = some rival → rival.task.runId = delivery.task.runId → rival.stepId = delivery.stepId →
    delivery.records = true → rival.records = true → other = index

/-- Every action but the step of a step's delivery leaves all steps alone. -/
theorem World.act_untouched (world : World) (now : Instant) {action : Action}
    (apart : ∀ index surroundings, action ≠ .advanceStep index surroundings) :
    Untouched runId stepId world.db (world.act known now action).db := by
  cases action with
  | operate op budget outside =>
    exact withTransaction_keeps .refl (op.work_kept untouched_frame outside) budget world.db
  | keepUp upkeep => exact upkeep.apply_untouched now world.db
  | dequeue poisonThreshold options => exact .ofTables rfl rfl rfl
  | advanceStep index surroundings => exact absurd rfl (apart index surroundings)
  | advanceDecision index surroundings decided =>
    simp only [World.act]
    split
    · exact .refl world.db
    · exact DecisionDelivery.advance_untouched _ _ _ _

/-- Deliveries are only added, without a report and without a result of their own. -/
theorem World.act_steps (world : World) (now : Instant) {action : Action}
    (apart : ∀ index surroundings, action ≠ .advanceStep index surroundings) :
    ∃ more, (world.act known now action).steps = world.steps ++ more ∧
      ∀ delivery ∈ more, delivery.Owns ∧ delivery.records = false ∧ delivery.report = none := by
  cases action with
  | operate | keepUp => exact ⟨[], (List.append_nil _).symm, by simp⟩
  | dequeue poisonThreshold options =>
    refine ⟨_, rfl, fun delivery taken => ?_⟩
    obtain ⟨task, -, made⟩ := List.mem_filterMap.mp taken
    unfold LeasedTask.toStepDelivery at made
    split at made
    · cases made
    · cases made
      exact ⟨trivial, rfl, rfl⟩
  | advanceStep index surroundings => exact absurd rfl (apart index surroundings)
  | advanceDecision index surroundings decided =>
    simp only [World.act]
    split <;> exact ⟨[], (List.append_nil _).symm, by simp⟩

theorem World.Tidy.more (tidy : world.Tidy) {world' : World} {more : List StepDelivery}
    (untouched : ∀ runId stepId, Untouched runId stepId world.db world'.db) (steps : world'.steps = world.steps ++ more)
    (fresh : ∀ delivery ∈ more, delivery.Owns ∧ delivery.records = false ∧ delivery.report = none) : world'.Tidy := by
  have old (index : Nat) (delivery : StepDelivery) (listed : world'.steps[index]? = some delivery)
      (records : delivery.records = true) : world.steps[index]? = some delivery := by
    rw [steps] at listed
    by_cases inside : index < world.steps.length
    · rwa [List.getElem?_append_left inside] at listed
    · rw [List.getElem?_append_right (by omega)] at listed
      rw [(fresh delivery (List.mem_of_getElem? listed)).2.1] at records
      cases records
  refine ⟨tidy.ends.keep untouched, fun delivery listed => ?_, fun delivery listed records => ?_, ?_⟩
  · rw [steps] at listed
    rcases List.mem_append.mp listed with listed | added
    · exact tidy.owns delivery listed
    · exact (fresh delivery added).1
  · rw [(untouched _ _).recorded]
    obtain ⟨index, placed⟩ := List.getElem?_of_mem listed
    exact tidy.recorders delivery (List.mem_of_getElem? (old index delivery placed records)) records
  · intro index other delivery rival listed listed' run step records records'
    exact tidy.single index other delivery rival (old index delivery listed records) (old other rival listed' records')
      run step records records'

/-- A step of a delivery keeps the order. -/
theorem World.Tidy.advance (tidy : world.Tidy) {index : Nat} {delivery : StepDelivery}
    (found : world.steps[index]? = some delivery) (surroundings : Surroundings) :
    World.Tidy { world with
      db := (delivery.advance known surroundings world.db).2
      steps := world.steps.set index (delivery.advance known surroundings world.db).1 } := by
  have effect : StepEffect surroundings delivery world.db (delivery.advance known surroundings world.db).2 :=
    StepDelivery.advance_effect known
  have same : delivery.Same (delivery.advance known surroundings world.db).1 := StepDelivery.advance_same known
  have once : delivery.RecordsOnce (delivery.advance known surroundings world.db).1 world.db
    (delivery.advance known surroundings world.db).2 := StepDelivery.advance_records
  have member := List.mem_of_getElem? found
  have apart {other : Nat} {rival : StepDelivery} (elsewhere : index ≠ other) (listed : world.steps[other]? = some rival)
      (run : rival.task.runId = delivery.task.runId) (step : rival.stepId = delivery.stepId)
      (records : (delivery.advance known surroundings world.db).1.records = true) (records' : rival.records = true) :
      False := by
    rcases once.2.2 records with before | ⟨absent, -⟩
    · exact elsewhere (tidy.single index other delivery rival found listed run step before records').symm
    · have recorded := tidy.recorders rival (List.mem_of_getElem? listed) records'
      rw [run, step, absent] at recorded
      cases recorded
  refine ⟨effect.endsSteps tidy.ends, fun other listed => ?_, fun other listed records => ?_, ?_⟩
  · rcases List.mem_or_eq_of_mem_set listed with listed | rfl
    · exact tidy.owns other listed
    · exact once.1
  · rcases List.mem_or_eq_of_mem_set listed with listed | rfl
    · exact effect.remembers (tidy.recorders other listed records)
    · rw [same.task, same.stepId]
      rcases once.2.2 records with before | ⟨-, recorded⟩
      · exact effect.remembers (tidy.recorders delivery member before)
      · exact recorded
  · intro one two first second listed listed' run step records records'
    rcases listed_of_set listed with ⟨rfl, rfl⟩ | ⟨elsewhere, listed⟩ <;>
      rcases listed_of_set listed' with ⟨here, rfl⟩ | ⟨elsewhere', listed'⟩
    · exact here.symm
    · rw [same.task] at run
      rw [same.stepId] at step
      exact (apart elsewhere' listed' run step records records').elim
    · rw [same.task] at run
      rw [same.stepId] at step
      exact (apart elsewhere listed run.symm step.symm records' records).elim
    · exact tidy.single one two first second listed listed' run step records records'

theorem World.Tidy.act (tidy : world.Tidy) (now : Instant) (action : Action) : (world.act known now action).Tidy := by
  by_cases apart : ∀ index surroundings, action ≠ .advanceStep index surroundings
  · have added : ∃ more, (world.act known now action).steps = world.steps ++ more ∧
      ∀ delivery ∈ more, delivery.Owns ∧ delivery.records = false ∧ delivery.report = none := world.act_steps now apart
    obtain ⟨more, steps, fresh⟩ := added
    exact tidy.more (fun runId stepId => world.act_untouched now apart) steps fresh
  · simp only [not_forall, not_not] at apart
    obtain ⟨index, surroundings, rfl⟩ := apart
    simp only [World.act]
    split
    · exact tidy
    · next found => exact tidy.advance found surroundings

theorem worldRun_tidy {meets : World → Action → Prop} {start : World} (run : WorldRun known meets start world)
    (tidy : start.Tidy) : world.Tidy := by
  induction run with
  | refl => exact tidy
  | step run now action met ih => exact ih.act now action

theorem emptyWorld_tidy : emptyWorld.Tidy := by
  constructor
  · intro runId stepId
    rfl
  all_goals simp [emptyWorld]

/-- What is left of the attempts of a step that has a result. -/
structure World.Settled (runId : RunId) (stepId : String) (before after : World) : Prop where
  untouched : Untouched runId stepId before.db after.db
  reports : ∀ (index : Nat) (delivery : StepDelivery) (outcome : StepTaskOutcome), after.steps[index]? = some delivery →
    delivery.task.runId = runId → delivery.stepId = stepId → delivery.report = some outcome →
    (∃ earlier, before.steps[index]? = some earlier ∧ earlier.report = some outcome) ∨
      outcome = .alreadyRecorded ∨ outcome = .leaseLost ∨ delivery.records = true

theorem World.Settled.act {before : World} (settled : World.Settled runId stepId before world) (tidy : world.Tidy)
    (recorded : before.db.hasRecordedResult runId stepId = true) (now : Instant) {action : Action}
    (inTime : InTime world action) : World.Settled runId stepId before (world.act known now action) := by
  by_cases apart : ∀ index surroundings, action ≠ .advanceStep index surroundings
  · have added : ∃ more, (world.act known now action).steps = world.steps ++ more ∧
        ∀ delivery ∈ more, delivery.Owns ∧ delivery.records = false ∧ delivery.report = none := world.act_steps now apart
    obtain ⟨more, steps, fresh⟩ := added
    refine ⟨settled.untouched.trans _ _ _ (world.act_untouched now apart), ?_⟩
    intro index delivery outcome listed run step reported
    rw [steps] at listed
    by_cases inside : index < world.steps.length
    · rw [List.getElem?_append_left inside] at listed
      exact settled.reports index delivery outcome listed run step reported
    · rw [List.getElem?_append_right (by omega)] at listed
      rw [(fresh delivery (List.mem_of_getElem? listed)).2.2] at reported
      cases reported
  · simp only [not_forall, not_not] at apart
    obtain ⟨index, surroundings, rfl⟩ := apart
    simp only [World.act]
    split
    · exact settled
    · next delivery found =>
        have same : delivery.Same (delivery.advance known surroundings world.db).1 := StepDelivery.advance_same known
        have effect : StepEffect surroundings delivery world.db (delivery.advance known surroundings world.db).2 :=
          StepDelivery.advance_effect known
        have once : delivery.RecordsOnce (delivery.advance known surroundings world.db).1 world.db
          (delivery.advance known surroundings world.db).2 := StepDelivery.advance_records
        have late (run : delivery.task.runId = runId) (step : delivery.stepId = stepId) :
            Untouched runId stepId world.db (delivery.advance known surroundings world.db).2 ∧
              delivery.ReportsLate (delivery.advance known surroundings world.db).1 := by
          subst run step
          exact StepDelivery.advance_late (tidy.owns delivery (List.mem_of_getElem? found)) (inTime delivery found)
            (settled.untouched.recorded.trans recorded)
        refine ⟨settled.untouched.trans _ _ _ ?_, ?_⟩
        · by_cases own : runId = delivery.task.runId ∧ stepId = delivery.stepId
          · exact (late own.1.symm own.2.symm).1
          · exact effect.untouched own
        · intro other entry outcome listed run step reported
          rcases listed_of_set listed with ⟨rfl, rfl⟩ | ⟨-, listed⟩
          · rw [same.task] at run
            rw [same.stepId] at step
            rcases (late run step).2 with kept | already | lost | records
            · rw [kept] at reported
              rcases settled.reports index delivery outcome found run step reported with earlier | already | lost | records
              · exact .inl earlier
              · exact .inr (.inl already)
              · exact .inr (.inr (.inl lost))
              · exact .inr (.inr (.inr (once.2.1 records)))
            · exact .inr (.inl (Option.some.inj (reported.symm.trans already)))
            · exact .inr (.inr (.inl (Option.some.inj (reported.symm.trans lost))))
            · exact .inr (.inr (.inr records))
          · exact settled.reports other entry outcome listed run step reported

/-- Where failing deliveries write in time, a step has one terminal event once it has a result,
its events and dead letters stay as they are, one delivery recorded the result, and every
other delivery reports that it was recorded already or that its lease is lost. -/
theorem lateAttempts_quiet {before after : World} (reached : WorldRun known InTime emptyWorld before)
    (later : WorldRun known InTime before after) (runId : RunId) (stepId : String)
    (recorded : before.db.hasRecordedResult runId stepId = true) : ((after.db.attemptEvents runId stepId).filter isStepResult).length = 1 ∧
      World.Settled runId stepId before after ∧ ∀ (index other : Nat) (delivery rival : StepDelivery), after.steps[index]? = some delivery →
        after.steps[other]? = some rival → rival.task.runId = delivery.task.runId → rival.stepId = delivery.stepId →
        delivery.records = true → rival.records = true → other = index := by
  have tidy := worldRun_tidy reached emptyWorld_tidy
  have settled : World.Settled runId stepId before after := by
    induction later with
    | refl => exact ⟨.refl _, fun index delivery outcome listed _ _ reported => .inl ⟨delivery, listed, reported⟩⟩
    | step later now action inTime ih => exact ih.act (worldRun_tidy later tidy) recorded now inTime
  have tidy' := worldRun_tidy later tidy
  refine ⟨?_, settled, tidy'.single⟩
  rw [tidy'.ends runId stepId, settled.untouched.recorded, if_pos recorded]

end Worlds

section Blip

/-- Steps that are tried once. -/
def triedOnce : String → Option StepDefinition :=
  fun _ => some ⟨some { defaultRetryPolicy with maxAttempts := 1, positiveAttempts := by norm_num }⟩

/-- A step task is leased. -/
def leasedStep : List (Instant × Action) :=
  [(.epoch, startsOnMain), (.epoch, schedulesCharge), (.epoch, .dequeue ⟨3, threeTimes_pos⟩ dueOnMain)]

/-- The handler returns, and no statement fails. -/
def calm : Surroundings := ⟨.epoch, false, none, .mk "Error" none none none, .returned .null, 0⟩

/-- The result of the step is recorded, and its task is not acknowledged yet. -/
def recordedStep : World := emptyWorld.acts triedOnce (leasedStep ++ List.replicate 5 (.epoch, .advanceStep 0 calm))

theorem inTime_of_unrecorded {world : World} (none' : world.db.stepResults = []) (action : Action) : InTime world action := by
  cases action with
  | advanceStep index surroundings =>
    intro delivery found recorded
    rw [Database.hasRecordedResult, none'] at recorded
    cases recorded
  | _ => trivial

/-- The lease of a step task is lost while its handler runs, and a second delivery records the result. -/
def takenTwice : List (Instant × Action) :=
  leasedStep ++ List.replicate 3 (.epoch, Action.advanceStep 0 calm) ++
    [(later, .keepUp (.reclaim ⟨3, threeTimes_pos⟩ fun _ => false)), (later, .dequeue ⟨3, threeTimes_pos⟩ dueOnMain)] ++
      List.replicate 5 (later, Action.advanceStep 1 calm)

/-- The handler of the first delivery returns once the second one has recorded the result. -/
theorem lateAttempts_quiet_recorded :
    let after := (emptyWorld.acts triedOnce takenTwice).acts triedOnce (List.replicate 3 (later, .advanceStep 0 calm))
    after.steps.map StepDelivery.invoked = [true, true] ∧ after.steps.map StepDelivery.records = [false, true] ∧
      ((after.db.attemptEvents 0 "step-1").filter isStepResult).length = 1 := by
  have leased : WorldRun triedOnce InTime emptyWorld (emptyWorld.acts triedOnce leasedStep) := by
    refine WorldRun.refl.acts leasedStep fun world action listed => ?_
    simp only [leasedStep, List.mem_cons, List.not_mem_nil, or_false] at listed
    rcases listed with rfl | rfl | rfl <;> trivial
  have handling := ((leased.step .epoch (.advanceStep 0 calm) (inTime_of_unrecorded rfl _)).step .epoch (.advanceStep 0 calm)
    (inTime_of_unrecorded rfl _)).step .epoch (.advanceStep 0 calm) (inTime_of_unrecorded rfl _)
  have retaken := (handling.step later (.keepUp (.reclaim ⟨3, threeTimes_pos⟩ fun _ => false)) trivial).step later
    (.dequeue ⟨3, threeTimes_pos⟩ dueOnMain) trivial
  have first := (retaken.step later (.advanceStep 1 calm) (inTime_of_unrecorded rfl _)).step later (.advanceStep 1 calm)
    (inTime_of_unrecorded rfl _)
  have second := (first.step later (.advanceStep 1 calm) (inTime_of_unrecorded rfl _)).step later (.advanceStep 1 calm)
    (inTime_of_unrecorded rfl _)
  have recorded : WorldRun triedOnce InTime emptyWorld (emptyWorld.acts triedOnce takenTwice) :=
    second.step later (.advanceStep 1 calm) (inTime_of_unrecorded rfl _)
  have late {world : World} (run : WorldRun triedOnce InTime (emptyWorld.acts triedOnce takenTwice) world)
      (timely : InTime world (.advanceStep 0 calm)) : WorldRun triedOnce InTime _ _ :=
    run.step later (.advanceStep 0 calm) timely
  have one := late .refl fun delivery found _ => by
    obtain rfl := Option.some.inj found
    trivial
  have two := late one fun delivery found _ => by
    obtain rfl := Option.some.inj found
    trivial
  have three := late two fun delivery found _ => by
    obtain rfl := Option.some.inj found
    trivial
  exact ⟨rfl, rfl, (lateAttempts_quiet recorded three 0 "step-1" rfl).1⟩
/-- The acknowledgement of a recorded result fails. The delivery takes that for a failure of
the step: it notes a failed attempt and stores a dead letter. -/
theorem lateAttempts_blip : ∃ after delivery, WorldRun triedOnce (fun _ _ => True) recordedStep after ∧
    recordedStep.db.attemptEvents 0 "step-1" = [.stepCompleted "step-1" .null] ∧
    after.db.attemptEvents 0 "step-1" = [.stepCompleted "step-1" .null, .stepAttemptFailed "step-1" 1 (.mk "Error" none none none) none] ∧
    (after.db.letters 0 "step-1").length = 1 ∧ after.steps[0]? = some delivery ∧
    ∃ deadLetterId, delivery.report = some (.deadLettered 1 deadLetterId) := by
  refine ⟨recordedStep.acts triedOnce ((.epoch, .advanceStep 0 { calm with budget := some 0 }) ::
    List.replicate 2 (.epoch, .advanceStep 0 calm)), _, WorldRun.refl.acts _ fun _ _ _ => trivial, rfl, rfl, rfl, rfl, _, rfl⟩

end Blip

end DurableExecution.Engine

import DurableExecution.Engine.Frames
import DurableExecution.Engine.StepTaskProcessor
import DurableExecution.Engine.TaskHandler

/-
This file models workers side by side: tasks are delivered any number of times, and the
handlings of all deliveries run one statement or one transaction at a time, between the
operations of the engine and the upkeep of the queue.
-/

namespace DurableExecution.Engine

open Workflow (JsValue RecordedError WorkflowEvent WorkflowCommand commandToEvent Instant)
open Transaction

section Decisions

/-- Where the handling of a workflow task stands. -/
inductive DecisionPhase where
  | delivered
  | deciding
  | marking
  | ensuring
  | rejected
  | returned

/-- One delivery of a workflow task. -/
structure DecisionDelivery where
  task : LeasedTask
  afterClosing : Bool
  phase : DecisionPhase

/-- What a decider makes of the history that its handler read, with the marker computed for it
and the open steps it finds. -/
structure Decided where
  expectedSeq : Nat
  commands : List WorkflowCommand
  suspended : Bool
  waitingOn : Option WaitingOn
  openSteps : List (String × String × JsValue)

def DecisionDelivery.goTo (delivery : DecisionDelivery) (phase : DecisionPhase) : DecisionDelivery :=
  { delivery with phase := phase }

/-- The statements of `ensureStepTasks`. -/
def ensureStepTasksOn (namespaceId : Nat) (runId : RunId) (queueName : String)
    (openSteps : List (String × String × JsValue)) (now : Instant) : Tx Unit :=
  openSteps.forM fun step => discard (enqueueStepTask namespaceId runId queueName step.1 step.2.1 step.2.2 now)

/-- The next step of `handleWorkflowTask`. A closed run, or none, has nothing to decide. -/
def DecisionDelivery.advance (surroundings : Surroundings) (decided : Decided) (delivery : DecisionDelivery)
    (db : Database) : DecisionDelivery × Database :=
  let now := surroundings.now
  let runId := delivery.task.runId
  match delivery.phase with
  | .delivered =>
    if surroundings.fails then (delivery.goTo .rejected, db)
    else match db.run? runId with
      | none => (delivery.goTo .returned, db)
      | some row => if isTerminalState row.status then (delivery.goTo .returned, db) else (delivery.goTo .deciding, db)
  | .deciding =>
    match recordWorkflowTaskResult (recorderAt delivery.task now)
        (decisionInput runId (toString delivery.task.id) decided.expectedSeq decided.commands) surroundings.budget db with
    | (.ok answer, db') =>
      (delivery.goTo (if answer.recorded then .marking else if decided.suspended then .ensuring else .returned), db')
    | (.error (.raised (.concurrency ..)), db') => (delivery.goTo .returned, db')
    | (.error _, db') => (delivery.goTo .rejected, db')
  | .marking =>
    if surroundings.fails then (delivery.goTo .rejected, db)
    else (delivery.goTo (if decided.suspended then .ensuring else .returned),
      db.markRunWaiting runId decided.waitingOn (decide (0 < decided.commands.length)))
  | .ensuring =>
    match withTransaction (ensureStepTasksOn delivery.task.namespaceId runId delivery.task.queueName
        decided.openSteps now) surroundings.budget db with
    | (.ok _, db') => (delivery.goTo .returned, db')
    | (.error _, db') => (delivery.goTo .rejected, db')
  | .rejected | .returned => (delivery, db)

end Decisions

section Worlds

/-- The database and the deliveries so far. -/
structure World where
  db : Database
  steps : List StepDelivery
  decisions : List DecisionDelivery

def emptyWorld : World := ⟨emptyDatabase, [], []⟩

/-- What else happens to the queue: workers settle their tasks and extend their leases, lost
leases are reclaimed, operators release tasks and requeue dead letters. -/
inductive Upkeep where
  | ack (taskId leaseToken : Nat)
  | nack (taskId leaseToken delayMs : Nat)
  | quarantine (taskId leaseToken : Nat)
  | extend (taskId leaseToken visibilityTimeoutMs : Nat)
  | reclaim (poisonThreshold : PoisonThreshold) (locked : Nat → Bool)
  | release (taskId : Nat)
  | enqueue (namespaceId : Nat) (runId : RunId) (queueName : String) (payload : TaskPayload) (delayMs : Nat)
  | requeue (deadLetterId : Nat)

def TaskPayload.withAttemptOffset (attemptOffset : Nat) : TaskPayload → TaskPayload
  | .workflowTask reason => .workflowTask reason
  | .stepTask stepId stepType input _ => .stepTask stepId stepType input attemptOffset

/-- The transaction of `requeue`. -/
def Database.requeue (now : Instant) (db : Database) (deadLetterId : Nat) : Database :=
  match db.deadLetters.find? fun letter => letter.id == deadLetterId && letter.requeuedAt.isNone with
  | none => db
  | some letter =>
    { db.addTask (newTask letter.namespaceId letter.runId letter.queueName
        (letter.payload.withAttemptOffset letter.attempts) now.ms) with
      deadLetters := db.deadLetters.map fun other =>
        if other.id = deadLetterId then { other with requeuedAt := some now } else other }

def Upkeep.apply (now : Instant) (db : Database) : Upkeep → Database
  | .ack taskId leaseToken => (db.ack taskId leaseToken).2
  | .nack taskId leaseToken delayMs => (db.nack now taskId leaseToken delayMs).2
  | .quarantine taskId leaseToken => (db.quarantine taskId leaseToken).2
  | .extend taskId leaseToken visibilityTimeoutMs => (db.extend now taskId leaseToken visibilityTimeoutMs).2
  | .reclaim poisonThreshold locked => (db.reclaimOrphanedLeases now poisonThreshold locked).2
  | .release taskId => (db.releaseQuarantined now taskId).2
  | .enqueue namespaceId runId queueName payload delayMs => (db.enqueue now namespaceId runId queueName payload delayMs).2
  | .requeue deadLetterId => db.requeue now deadLetterId

/-- The run of this name is closed. -/
def Database.isClosed (db : Database) (runId : RunId) : Bool := (db.run? runId).any fun row => isTerminalState row.status

/-- What happens next: an operation of the engine, something to the queue, a delivery of due
tasks, or the next step of a delivery. -/
inductive Action where
  | operate (op : EngineOp) (budget : Option Nat) (apart : op.recordsAttempt = false)
  | keepUp (upkeep : Upkeep)
  | dequeue (poisonThreshold : PoisonThreshold) (options : DequeueOptions)
  | advanceStep (index : Nat) (surroundings : Surroundings)
  | advanceDecision (index : Nat) (surroundings : Surroundings) (decided : Decided)

def LeasedTask.toStepDelivery (db : Database) (task : LeasedTask) : Option StepDelivery :=
  match task.payload with
  | .workflowTask _ => none
  | .stepTask stepId stepType _ attemptOffset =>
    some ⟨task, db.isClosed task.runId, stepId, stepType, attemptOffset, .delivered, false, false, none⟩

def LeasedTask.toDecisionDelivery (db : Database) (task : LeasedTask) : Option DecisionDelivery :=
  match task.payload with
  | .workflowTask _ => some ⟨task, db.isClosed task.runId, .delivered⟩
  | .stepTask .. => none

/-- What an action makes of the world. The steps that workers know are given. -/
def World.act (known : String → Option StepDefinition) (world : World) (now : Instant) : Action → World
  | .operate op budget _ => { world with db := op.run now budget world.db }
  | .keepUp upkeep => { world with db := upkeep.apply now world.db }
  | .dequeue poisonThreshold options =>
    let taken := world.db.dequeue now poisonThreshold options
    ⟨taken.2, world.steps ++ taken.1.filterMap (·.toStepDelivery world.db),
      world.decisions ++ taken.1.filterMap (·.toDecisionDelivery world.db)⟩
  | .advanceStep index surroundings =>
    match world.steps[index]? with
    | none => world
    | some delivery =>
      let advanced := delivery.advance known surroundings world.db
      { world with db := advanced.2, steps := world.steps.set index advanced.1 }
  | .advanceDecision index surroundings decided =>
    match world.decisions[index]? with
    | none => world
    | some delivery =>
      let advanced := delivery.advance surroundings decided world.db
      { world with db := advanced.2, decisions := world.decisions.set index advanced.1 }

/-- What happens from one world on, where each action meets a condition. -/
inductive WorldRun (known : String → Option StepDefinition) (meets : World → Action → Prop) (start : World) : World → Prop
  | refl : WorldRun known meets start start
  | step {world : World} (run : WorldRun known meets start world) (now : Instant) (action : Action)
      (met : meets world action) : WorldRun known meets start (world.act known now action)

end Worlds

section Keeping

/-- What every operation and the mark of this delivery keep, a step of the delivery keeps. -/
theorem DecisionDelivery.advance_keeps {quiet : WorkflowEvent → Prop} {relation : Database → Database → Prop}
    (frame : Frame quiet relation) (surroundings : Surroundings) (decided : Decided) (delivery : DecisionDelivery) (db : Database)
    (marked : delivery.phase = .marking → surroundings.fails = false →
      relation db (db.markRunWaiting delivery.task.runId decided.waitingOn (decide (0 < decided.commands.length)))) :
    relation db (delivery.advance surroundings decided db).2 := by
  cases phase : delivery.phase with
  | delivered =>
    simp only [DecisionDelivery.advance, phase]
    split
    · exact frame.refl db
    · split
      · exact frame.refl db
      · split <;> exact frame.refl db
  | deciding =>
    have silent : ∀ event ∈ decided.commands.map commandToEvent, quiet event := by
      intro event listed
      obtain ⟨command, -, rfl⟩ := List.mem_map.mp listed
      exact frame.control _ (commandToEvent_isAttemptEvent command)
    have kept : relation db (recordWorkflowTaskResult (recorderAt delivery.task surroundings.now)
        (decisionInput delivery.task.runId (toString delivery.task.id) decided.expectedSeq decided.commands)
        surroundings.budget db).2 :=
      withTransaction_keeps frame.refl (recordWorkflowTaskResultOn_kept frame _ _ silent) surroundings.budget db
    simp only [DecisionDelivery.advance, phase]
    split
    · next answered =>
        rw [answered] at kept
        exact kept
    · next answered =>
        rw [answered] at kept
        exact kept
    · next _ answered =>
        rw [answered] at kept
        exact kept
  | marking =>
    simp only [DecisionDelivery.advance, phase]
    split
    · exact frame.refl db
    · next works => exact marked phase (by simpa using works)
  | ensuring =>
    have kept : relation db (withTransaction (ensureStepTasksOn delivery.task.namespaceId delivery.task.runId
        delivery.task.queueName decided.openSteps surroundings.now) surroundings.budget db).2 :=
      withTransaction_keeps frame.refl (.forM frame.refl frame.trans fun step _ =>
        (enqueueStepTask_kept frame.log _ _ _ _ _ _).discard) surroundings.budget db
    simp only [DecisionDelivery.advance, phase]
    split
    · next answered =>
        rw [answered] at kept
        exact kept
    · next answered =>
        rw [answered] at kept
        exact kept
  | rejected | returned =>
    simp only [DecisionDelivery.advance, phase]
    exact frame.refl db

/-- What every operation and every mark keeps, a step of a decision's delivery keeps. -/
theorem DecisionDelivery.advance_kept {quiet : WorkflowEvent → Prop} {relation : Database → Database → Prop} (frame : Frame quiet relation)
    (marked : ∀ (db : Database) (runId : RunId) (waitingOn : Option WaitingOn) (progressed : Bool),
      relation db (db.markRunWaiting runId waitingOn progressed))
    (surroundings : Surroundings) (decided : Decided) (delivery : DecisionDelivery) (db : Database) :
    relation db (delivery.advance surroundings decided db).2 :=
  delivery.advance_keeps frame surroundings decided db fun _ _ => marked db _ _ _

end Keeping

section Effects

/-- What a step of a step delivery does to the database. -/
inductive StepEffect (surroundings : Surroundings) (delivery : StepDelivery) (db : Database) : Database → Prop
  | unchanged : StepEffect surroundings delivery db db
  | acked : StepEffect surroundings delivery db (db.ack delivery.task.id delivery.task.leaseToken).2
  | nacked (delayMs : Nat) : StepEffect surroundings delivery db
      (db.nack surroundings.now delivery.task.id delivery.task.leaseToken delayMs).2
  | recorded (attempt : Nat) (outcome : StepOutcome) : StepEffect surroundings delivery db
      (recordStepResult (recorderAt delivery.task surroundings.now) (delivery.resultOf attempt outcome)
        surroundings.budget db).2
  | noted (attempt : Nat) (error : RecordedError) (retryAt : Option Instant) : StepEffect surroundings delivery db
      (withTransaction (recordFailureOn ⟨delivery.task.runId, delivery.stepId, attempt, error, retryAt⟩
        surroundings.now) surroundings.budget db).2
  | parked (attempt : Nat) (error : RecordedError) : StepEffect surroundings delivery db
      (addAndAck (deadLetterInput delivery attempt error) delivery.lease
        (discard (recordStepResultOn (recorderAt delivery.task surroundings.now)
          (delivery.resultOf attempt (.failed error true)))) surroundings.now surroundings.budget db).2
  | woken : StepEffect surroundings delivery db (db.enqueue surroundings.now delivery.task.namespaceId
      delivery.task.runId delivery.task.queueName (.workflowTask .stepCompleted) 0).2

variable {surroundings : Surroundings} {delivery : StepDelivery} {db : Database}

theorem StepEffect.ofAnswer {A : Type} {outcome : A × Database} {answer : A} {db' : Database}
    (effect : StepEffect surroundings delivery db outcome.2) (same : outcome = (answer, db')) :
    StepEffect surroundings delivery db db' := by
  rw [same] at effect
  exact effect

theorem StepDelivery.noteFailure_effect (attempt : Nat) (error : RecordedError) (retryAt : Option Instant)
    (next : StepPhase) : StepEffect surroundings delivery db (delivery.noteFailure surroundings attempt error retryAt next db).2 := by
  simp only [StepDelivery.noteFailure]
  split
  · next answered => exact (StepEffect.noted attempt error retryAt).ofAnswer answered
  · next answered => exact (StepEffect.noted attempt error retryAt).ofAnswer answered

/-- Every step of a delivery has one of these effects. -/
theorem StepDelivery.advance_effect (known : String → Option StepDefinition) :
    StepEffect surroundings delivery db (delivery.advance known surroundings db).2 := by
  cases phase : delivery.phase with
  | delivered =>
    simp only [StepDelivery.advance, phase]
    split_ifs <;> exact .unchanged
  | resultFound =>
    simp only [StepDelivery.advance, phase]
    split_ifs
    · exact .unchanged
    · exact .acked
  | unrecorded =>
    simp only [StepDelivery.advance, phase]
    split_ifs <;> exact .unchanged
  | numbered attempt =>
    simp only [StepDelivery.advance, phase]
    split <;> exact .unchanged
  | handling attempt =>
    simp only [StepDelivery.advance, phase]
    split
    · exact .unchanged
    · split <;> exact .unchanged
  | succeeded attempt result =>
    simp only [StepDelivery.advance, phase]
    split
    · next answered => exact (StepEffect.recorded attempt _).ofAnswer answered
    · next answered => exact (StepEffect.recorded attempt _).ofAnswer answered
  | acknowledging attempt recorded =>
    simp only [StepDelivery.advance, phase]
    split_ifs
    · exact .unchanged
    all_goals exact .acked
  | caught attempt error =>
    simp only [StepDelivery.advance, phase]
    split
    · exact .unchanged
    · split
      · split
        · exact .unchanged
        · exact delivery.noteFailure_effect attempt error _ _
      · exact delivery.noteFailure_effect attempt error _ _
  | retrying attempt delayMs retryAt =>
    simp only [StepDelivery.advance, phase]
    split_ifs
    · exact .unchanged
    all_goals exact .nacked delayMs
  | givingUp attempt error reason =>
    cases reason with
    | nonRetryable =>
      simp only [StepDelivery.advance, phase]
      split
      · next answered => exact (StepEffect.recorded attempt _).ofAnswer answered
      · next answered => exact (StepEffect.recorded attempt _).ofAnswer answered
    | maxAttemptsExhausted =>
      simp only [StepDelivery.advance, phase]
      split
      · next answered => exact (StepEffect.parked attempt error).ofAnswer answered
      · next answered => exact (StepEffect.parked attempt error).ofAnswer answered
      · next _ answered => exact (StepEffect.parked attempt error).ofAnswer answered
  | settling attempt recorded =>
    simp only [StepDelivery.advance, phase]
    split_ifs
    · exact .unchanged
    all_goals exact .acked
  | reported outcome =>
    cases outcome with
    | completed | failed | alreadyRecorded =>
      simp only [StepDelivery.advance, phase]
      split
      · exact .unchanged
      · exact .woken
    | retryScheduled | deadLettered | leaseLost =>
      simp only [StepDelivery.advance, phase]
      exact .unchanged
  | rejected | returned =>
    simp only [StepDelivery.advance, phase]
    exact .unchanged

/-- A delivery keeps what it is the delivery of. -/
structure StepDelivery.Same (delivery other : StepDelivery) : Prop where
  task : other.task = delivery.task
  stepId : other.stepId = delivery.stepId
  afterClosing : other.afterClosing = delivery.afterClosing

theorem StepDelivery.goTo_same (phase : StepPhase) : delivery.Same (delivery.goTo phase) := ⟨rfl, rfl, rfl⟩

theorem StepDelivery.finish_same (outcome : StepTaskOutcome) : delivery.Same (delivery.finish outcome) := ⟨rfl, rfl, rfl⟩

theorem StepDelivery.noteFailure_same (attempt : Nat) (error : RecordedError) (retryAt : Option Instant)
    (next : StepPhase) : delivery.Same (delivery.noteFailure surroundings attempt error retryAt next db).1 := by
  simp only [StepDelivery.noteFailure]
  split <;> exact goTo_same _

theorem StepDelivery.advance_same (known : String → Option StepDefinition) : delivery.Same (delivery.advance known surroundings db).1 := by
  unfold StepDelivery.advance
  dsimp only
  repeat' split
  all_goals first
    | exact goTo_same _
    | exact finish_same _
    | exact noteFailure_same _ _ _ _
    | exact ⟨rfl, rfl, rfl⟩

end Effects

end DurableExecution.Engine

import DurableExecution.Engine.Deliveries

/-
This file proves what deliveries do that were taken after their run had closed.
-/

namespace DurableExecution.Engine

open Workflow (JsValue WorkflowEvent Instant)
open Transaction

section Closed

/-- A closed run stays closed. -/
def KeepsClosed (db db' : Database) : Prop := ∀ runId, db.isClosed runId = true → db'.isClosed runId = true

theorem KeepsClosed.refl (db : Database) : KeepsClosed db db := fun _ => id

theorem KeepsClosed.trans (one two three : Database) (first : KeepsClosed one two) (second : KeepsClosed two three) :
    KeepsClosed one three := fun runId closed => second runId (first runId closed)

theorem KeepsClosed.ofRuns {db db' : Database} (runs : db'.runs = db.runs) : KeepsClosed db db' := by
  intro runId closed
  rw [Database.isClosed, Database.run?, runs]
  exact closed

theorem isClosed_iff {db : Database} {runId : RunId} : db.isClosed runId = true ↔
    ∃ row, db.run? runId = some row ∧ row.status ≠ .running := by
  simp only [Database.isClosed, Option.any_eq_true, isTerminalState_iff]

/-- An update that does not open the row of a closed run. -/
theorem KeepsClosed.updateRun (db : Database) (runId : RunId) {change : RunRow → RunRow} (named : ∀ row, (change row).id = row.id)
    (kept : ∀ row, db.run? runId = some row → row.status ≠ .running → (change row).status ≠ .running) :
    KeepsClosed db (db.updateRun runId change) := by
  intro other closed
  obtain ⟨row, found, shut⟩ := isClosed_iff.mp closed
  rw [isClosed_iff, Database.updateRun_run? change named]
  split
  · next same =>
      subst same
      exact ⟨change row, by rw [found]; rfl, kept row found shut⟩
  · exact ⟨row, found, shut⟩

theorem KeepsClosed.addRun (db : Database) (row : RunId → RunRow) : KeepsClosed db (db.addRun row) := by
  intro runId closed
  obtain ⟨found, known, shut⟩ := isClosed_iff.mp closed
  refine isClosed_iff.mpr ⟨found, ?_, shut⟩
  change (db.runs ++ [row db.nextId]).find? _ = _
  rw [List.find?_append, show db.runs.find? (fun row => row.id == runId) = some found from known]
  rfl

theorem keepsClosed_whole : WholeFrame KeepsClosed where
  control _ _ := trivial
  refl := .refl
  trans := .trans
  appended _ _ _ := .ofRuns rfl
  projected db runId row next found folds := by
    refine .updateRun db runId (fun _ => rfl) fun other found' shut => ?_
    rw [found] at found'
    cases found'
    have shut' : (projectionFromRow row).state ≠ .running := shut
    rw [foldRunEvents_closed shut' folds] at folds
    cases folds
    exact shut
  limited db runId _ _ := .updateRun db runId (fun _ => rfl) fun _ _ => id
  opened db row _ := .addRun db row
  tasked _ _ _ _ _ _ := .ofRuns rfl
  withdrawn _ _ := .ofRuns rfl
  timed _ _ := .ofRuns rfl
  decided _ _ := .ofRuns rfl
  resulted _ _ := .ofRuns rfl
  attempted _ _ := .ofRuns rfl

theorem Upkeep.apply_keepsClosed (now : Instant) (db : Database) (upkeep : Upkeep) : KeepsClosed db (upkeep.apply now db) := by
  refine .ofRuns ?_
  cases upkeep with
  | requeue deadLetterId =>
    simp only [Upkeep.apply, Database.requeue]
    split <;> rfl
  | _ => rfl

theorem addAndAck_keepsClosed (input : AddDeadLetterInput) (lease : TaskLease) (options : RecorderOptions)
    (result : RecordStepResultInput) (now : Instant) (budget : Option Nat) (db : Database) :
    KeepsClosed db (addAndAck input lease (discard (recordStepResultOn options result)) now budget db).2 := by
  refine withTransaction_keeps .refl ?_ budget db
  refine keepsClosed_whole.toFrame.log.then (recordStepResultOn_kept keepsClosed_whole options result).discard fun _ => ?_
  refine keepsClosed_whole.toFrame.log.then (.statement fun db answer db' acked => ?_) fun acked => ?_
  · cases acked
    exact .ofRuns rfl
  · split
    · refine .statement fun db answer db' inserted => ?_
      split at inserted
      · cases inserted
        exact .refl db
      · split at inserted
        · cases inserted
          exact .ofRuns rfl
        · cases inserted
    · exact .raise _

theorem StepEffect.keepsClosed {surroundings : Surroundings} {delivery : StepDelivery} {db db' : Database}
    (effect : StepEffect surroundings delivery db db') : KeepsClosed db db' := by
  cases effect with
  | unchanged => exact .refl db
  | acked | nacked | woken => exact .ofRuns rfl
  | recorded attempt outcome =>
    exact withTransaction_keeps .refl (recordStepResultOn_kept keepsClosed_whole _ _) surroundings.budget db
  | noted attempt error retryAt =>
    exact withTransaction_keeps .refl (recordFailureOn_kept keepsClosed_whole _) surroundings.budget db
  | parked attempt error => exact addAndAck_keepsClosed _ _ _ _ _ _ db

/-- Nothing that happens opens a closed run. -/
theorem World.act_keepsClosed (known : String → Option StepDefinition) (world : World) (now : Instant) (action : Action) :
    KeepsClosed world.db (world.act known now action).db := by
  cases action with
  | operate op budget apart => exact withTransaction_keeps .refl (op.work_whole keepsClosed_whole) budget world.db
  | keepUp upkeep => exact upkeep.apply_keepsClosed now world.db
  | dequeue poisonThreshold options => exact .ofRuns rfl
  | advanceStep index surroundings =>
    simp only [World.act]
    split
    · exact .refl world.db
    · exact (StepDelivery.advance_effect known).keepsClosed
  | advanceDecision index surroundings decided =>
    simp only [World.act]
    split
    · exact .refl world.db
    · exact DecisionDelivery.advance_kept keepsClosed_whole.toFrame
        (fun db runId _ _ => .updateRun db runId (fun _ => rfl) fun _ _ => id) _ _ _ _

end Closed

section Quiet

/-- The delivery of a step of a closed run starts after its signal was aborted or finds the
result of the step, and does not get as far as to wake the run. -/
def StepDelivery.Withheld (surroundings : Surroundings) (delivery : StepDelivery) (db : Database) : Prop :=
  delivery.afterClosing = true →
    match delivery.phase with
    | .delivered => surroundings.aborted = true ∨ surroundings.fails = true ∨
        db.hasRecordedResult delivery.task.runId delivery.stepId = true
    | .reported .alreadyRecorded => surroundings.fails = true
    | _ => True

def Withheld (world : World) : Action → Prop
  | .advanceStep index surroundings => ∀ delivery, world.steps[index]? = some delivery →
      delivery.Withheld surroundings world.db
  | _ => True

/-- Where a delivery may stand that was taken after its run had closed. -/
def StepDelivery.Quiet (delivery : StepDelivery) : Prop :=
  delivery.afterClosing = true → delivery.invoked = false ∧
    match delivery.phase with
    | .delivered | .resultFound | .reported .alreadyRecorded | .reported .leaseLost | .rejected | .returned => True
    | _ => False

def DecisionDelivery.Quiet (delivery : DecisionDelivery) (db : Database) : Prop :=
  delivery.afterClosing = true → db.isClosed delivery.task.runId = true ∧
    match delivery.phase with
    | .delivered | .rejected | .returned => True
    | _ => False

/-- The task is acknowledged, or nothing changes. -/
def OnlyAcks (task : LeasedTask) (db db' : Database) : Prop := db' = db ∨ db' = (db.ack task.id task.leaseToken).2

variable {known : String → Option StepDefinition} {surroundings : Surroundings} {db : Database}

/-- A quiet delivery only acknowledges its task, and stays quiet. -/
theorem StepDelivery.Quiet.advance {delivery : StepDelivery} (quiet : delivery.Quiet) (withheld : delivery.Withheld surroundings db) :
    (delivery.advance known surroundings db).1.Quiet ∧ (delivery.afterClosing = true →
      OnlyAcks delivery.task db (delivery.advance known surroundings db).2) := by
  by_cases closing : delivery.afterClosing = true
  · obtain ⟨uninvoked, stands⟩ := quiet closing
    have held := withheld closing
    cases phase : delivery.phase with
    | delivered =>
      rw [phase] at held
      simp only [StepDelivery.advance, phase]
      split
      · exact ⟨fun _ => ⟨uninvoked, trivial⟩, fun _ => .inl rfl⟩
      · next going =>
          split
          · exact ⟨fun _ => ⟨uninvoked, trivial⟩, fun _ => .inl rfl⟩
          · next running =>
              split
              · exact ⟨fun _ => ⟨uninvoked, trivial⟩, fun _ => .inl rfl⟩
              · next unrecorded => exact absurd held (by simp [going, running, unrecorded])
    | resultFound =>
      simp only [StepDelivery.advance, phase]
      split
      · exact ⟨fun _ => ⟨uninvoked, trivial⟩, fun _ => .inl rfl⟩
      · exact ⟨fun _ => ⟨uninvoked, trivial⟩, fun _ => .inr rfl⟩
    | reported outcome =>
      cases outcome with
      | alreadyRecorded =>
        rw [phase] at held
        simp only [StepDelivery.advance, phase]
        rw [if_pos held]
        exact ⟨fun _ => ⟨uninvoked, trivial⟩, fun _ => .inl rfl⟩
      | leaseLost =>
        simp only [StepDelivery.advance, phase]
        exact ⟨fun _ => ⟨uninvoked, trivial⟩, fun _ => .inl rfl⟩
      | _ =>
        rw [phase] at stands
        exact stands.elim
    | rejected | returned =>
      simp only [StepDelivery.advance, phase]
      exact ⟨quiet, fun _ => .inl rfl⟩
    | _ =>
      rw [phase] at stands
      exact stands.elim
  · have same : (delivery.advance known surroundings db).1.afterClosing = delivery.afterClosing :=
      (StepDelivery.advance_same known).afterClosing
    exact ⟨fun closing' => absurd (same ▸ closing') closing, fun closing' => absurd closing' closing⟩

theorem DecisionDelivery.advance_same {decided : Decided} (delivery : DecisionDelivery) :
    (delivery.advance surroundings decided db).1.task = delivery.task ∧
      (delivery.advance surroundings decided db).1.afterClosing = delivery.afterClosing := by
  unfold DecisionDelivery.advance
  dsimp only
  repeat' split
  all_goals exact ⟨rfl, rfl⟩

/-- The handler of a workflow task sees that the run is closed. -/
theorem DecisionDelivery.Quiet.advance {delivery : DecisionDelivery} (quiet : delivery.Quiet db) (decided : Decided) :
    (delivery.advance surroundings decided db).1.Quiet db ∧
      (delivery.afterClosing = true → (delivery.advance surroundings decided db).2 = db) := by
  by_cases closing : delivery.afterClosing = true
  · obtain ⟨closed, stands⟩ := quiet closing
    cases phase : delivery.phase with
    | delivered =>
      obtain ⟨row, found, shut⟩ := isClosed_iff.mp closed
      simp only [DecisionDelivery.advance, phase]
      split
      · exact ⟨fun _ => ⟨closed, trivial⟩, fun _ => rfl⟩
      · simp only [found, (isTerminalState_iff _).mpr shut, if_true]
        exact ⟨fun _ => ⟨closed, trivial⟩, fun _ => trivial⟩
    | rejected | returned =>
      simp only [DecisionDelivery.advance, phase]
      exact ⟨quiet, fun _ => trivial⟩
    | _ =>
      rw [phase] at stands
      exact stands.elim
  · have same : (delivery.advance surroundings decided db).1.afterClosing = delivery.afterClosing :=
      delivery.advance_same.2
    exact ⟨fun closing' => absurd (same ▸ closing') closing, fun closing' => absurd closing' closing⟩

theorem DecisionDelivery.Quiet.keep {delivery : DecisionDelivery} {db' : Database} (quiet : delivery.Quiet db)
    (keeps : KeepsClosed db db') : delivery.Quiet db' :=
  fun closing => ⟨keeps _ (quiet closing).1, (quiet closing).2⟩

/-- Every delivery that was taken after its run had closed is quiet. -/
structure World.Quiet (world : World) : Prop where
  steps : ∀ delivery ∈ world.steps, delivery.Quiet
  decisions : ∀ delivery ∈ world.decisions, delivery.Quiet world.db

theorem World.Quiet.act {world : World} (quiet : world.Quiet) {action : Action} (now : Instant)
    (withheld : Withheld world action) : (world.act known now action).Quiet := by
  have keeps := world.act_keepsClosed known now action
  cases action with
  | operate | keepUp => exact ⟨quiet.steps, fun delivery listed => (quiet.decisions delivery listed).keep keeps⟩
  | dequeue poisonThreshold options =>
    refine ⟨fun delivery listed => ?_, fun delivery listed => ?_⟩
    · rcases List.mem_append.mp listed with listed | taken
      · exact quiet.steps delivery listed
      · obtain ⟨task, -, made⟩ := List.mem_filterMap.mp taken
        unfold LeasedTask.toStepDelivery at made
        split at made
        · cases made
        · cases made
          exact fun _ => ⟨rfl, trivial⟩
    · rcases List.mem_append.mp listed with listed | taken
      · exact (quiet.decisions delivery listed).keep keeps
      · obtain ⟨task, -, made⟩ := List.mem_filterMap.mp taken
        unfold LeasedTask.toDecisionDelivery at made
        split at made
        · cases made
          exact fun closing => ⟨keeps _ closing, trivial⟩
        · cases made
  | advanceStep index surroundings =>
    simp only [World.act] at keeps ⊢
    split at keeps
    · exact quiet
    · next delivery found =>
        refine ⟨fun other listed => ?_, fun other listed => (quiet.decisions other listed).keep keeps⟩
        rcases List.mem_or_eq_of_mem_set listed with listed | rfl
        · exact quiet.steps other listed
        · exact ((quiet.steps delivery (List.mem_of_getElem? found)).advance (withheld delivery found)).1
  | advanceDecision index surroundings decided =>
    simp only [World.act] at keeps ⊢
    split at keeps
    · exact quiet
    · next delivery found =>
        refine ⟨quiet.steps, fun other listed => ?_⟩
        rcases List.mem_or_eq_of_mem_set listed with listed | rfl
        · exact (quiet.decisions other listed).keep keeps
        · exact ((quiet.decisions delivery (List.mem_of_getElem? found)).advance decided).1.keep keeps

theorem worldRun_quiet {world : World} (run : WorldRun known Withheld emptyWorld world) : world.Quiet := by
  induction run with
  | refl => constructor <;> simp [emptyWorld]
  | step run now action withheld ih => exact ih.act now withheld

/-- Where every step delivery that was taken after its run had closed is withheld, no such
delivery calls a handler, and each of its steps acknowledges its task or changes nothing. A
workflow task that is taken after the closing changes nothing in any case. -/
theorem closedDeliveries_quiet {world : World} (run : WorldRun known Withheld emptyWorld world) :
    (∀ delivery ∈ world.steps, delivery.afterClosing = true → delivery.invoked = false) ∧
      (∀ (index : Nat) (delivery : StepDelivery) (surroundings : Surroundings), world.steps[index]? = some delivery →
        delivery.afterClosing = true → Withheld world (.advanceStep index surroundings) →
        (delivery.advance known surroundings world.db).1.invoked = false ∧
          OnlyAcks delivery.task world.db (delivery.advance known surroundings world.db).2) ∧
      ∀ delivery ∈ world.decisions, delivery.afterClosing = true → ∀ (surroundings : Surroundings) (decided : Decided),
        (delivery.advance surroundings decided world.db).2 = world.db := by
  have quiet := worldRun_quiet run
  refine ⟨fun delivery listed closing => (quiet.steps delivery listed closing).1, ?_,
    fun delivery listed closing surroundings decided => ((quiet.decisions delivery listed).advance decided).2 closing⟩
  intro index delivery surroundings found closing withheld
  have advanced : (delivery.advance known surroundings world.db).1.Quiet ∧ (delivery.afterClosing = true →
      OnlyAcks delivery.task world.db (delivery.advance known surroundings world.db).2) :=
    (quiet.steps delivery (List.mem_of_getElem? found)).advance (withheld delivery found)
  obtain ⟨quiet', acks⟩ := advanced
  have same : (delivery.advance known surroundings world.db).1.afterClosing = delivery.afterClosing :=
    (StepDelivery.advance_same known).afterClosing
  exact ⟨(quiet' (same.trans closing)).1, acks closing⟩

end Quiet

section Late

def World.acts (known : String → Option StepDefinition) (world : World) (actions : List (Instant × Action)) : World :=
  actions.foldl (fun world action => world.act known action.1 action.2) world

theorem WorldRun.acts {known : String → Option StepDefinition} {meets : World → Action → Prop} {start world : World}
    (run : WorldRun known meets start world) (actions : List (Instant × Action))
    (met : ∀ world, ∀ action ∈ actions, meets world action.2) : WorldRun known meets start (world.acts known actions) := by
  induction actions generalizing world with
  | nil => exact run
  | cons action rest ih =>
    have next := run.step action.1 action.2 (met world action List.mem_cons_self)
    exact ih next fun world other listed => met world other (List.mem_cons_of_mem _ listed)

/-- Two seconds after the epoch. -/
def later : Instant := ⟨2000, Workflow.twoSeconds_lower, Workflow.twoSeconds_upper⟩

theorem secondMs_pos : 0 < 1000 := by decide

theorem threeTimes_pos : 0 < 3 := by decide

def dueOnMain : DequeueOptions := ⟨"main", 1000, secondMs_pos, 5, by decide, none, [], fun _ => false⟩

def startsOnMain : Action := .operate (.startRun 0 "main" ⟨"order", .null, none, none, none⟩) none rfl

def schedulesCharge : Action :=
  .operate (.recordWorkflowTaskResult (some "main") 0 "1" 1 [.scheduleStep "step-1" "charge" .null]) none rfl

/-- A step task is leased when its run is terminated. The lease is lost, and the task is taken
once more. -/
def takenLate : List (Instant × Action) :=
  [(.epoch, startsOnMain), (.epoch, schedulesCharge), (.epoch, .dequeue ⟨3, threeTimes_pos⟩ dueOnMain),
    (.epoch, .operate (.terminateRun 0 none) none rfl),
    (later, .keepUp (.reclaim ⟨3, threeTimes_pos⟩ fun _ => false)),
    (later, .dequeue ⟨3, threeTimes_pos⟩ dueOnMain)]

def knownSteps : String → Option StepDefinition := fun _ => some ⟨none⟩

/-- The signal of the delivery is aborted. -/
def stopping : Surroundings := ⟨later, true, none, .mk "Error" none none none, .returned .null, 0⟩

theorem closedDeliveries_quiet_taken : ∃ delivery,
    (emptyWorld.acts knownSteps (takenLate ++ [(later, .advanceStep 1 stopping)])).steps[1]? = some delivery ∧
      delivery.afterClosing = true ∧ delivery.report.isSome = true ∧ delivery.invoked = false := by
  have taken : WorldRun knownSteps Withheld emptyWorld (emptyWorld.acts knownSteps takenLate) := by
    refine WorldRun.refl.acts takenLate fun world action listed => ?_
    simp only [takenLate, List.mem_cons, List.not_mem_nil, or_false] at listed
    rcases listed with rfl | rfl | rfl | rfl | rfl | rfl <;> trivial
  have withheld : Withheld (emptyWorld.acts knownSteps takenLate) (.advanceStep 1 stopping) := by
    intro delivery found _
    obtain rfl := Option.some.inj found
    exact .inl rfl
  have run := taken.step later (.advanceStep 1 stopping) withheld
  refine ⟨_, rfl, rfl, rfl, (closedDeliveries_quiet run).1 _ ?_ rfl⟩
  exact List.mem_of_getElem? (i := 1) rfl

/-- The handler of the step throws. -/
def thrown : Surroundings :=
  ⟨later, false, none, .mk "Error" none none none, .threw (.mk "NonRetryableError" (some "declined") none none), 0⟩

/-- The delivery calls the handler, whose failure follows the end of the log. -/
theorem closedDeliveries_calls : ∃ world delivery, WorldRun knownSteps (fun _ _ => True) emptyWorld world ∧
    world.steps[1]? = some delivery ∧ delivery.afterClosing = true ∧ delivery.invoked = true ∧
    world.db.log 0 = [.runStarted "order" .null, .stepScheduled "step-1" "charge" .null, .runTerminated none,
      .stepAttemptFailed "step-1" 1 (.mk "NonRetryableError" (some "declined") none none) none] := by
  refine ⟨emptyWorld.acts knownSteps (takenLate ++ List.replicate 5 (later, .advanceStep 1 thrown)), _,
    WorldRun.refl.acts _ fun _ _ _ => trivial, rfl, rfl, rfl, rfl⟩

end Late

end DurableExecution.Engine

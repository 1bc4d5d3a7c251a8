import DurableExecution.Engine.Artifacts

/-
This file proves that recording is atomic and happens once: over all runs of starts,
decisions and step results, the rows that a decision creates match the events of the logs.
-/

namespace DurableExecution.Engine

open Workflow (JsValue WorkflowEvent WorkflowCommand commandToEvent Instant JsNumber ParentClosePolicy)
open Transaction

/-- A decision that a recorder recorded. -/
structure RecordedCall where
  options : RecorderOptions
  input : RecordWorkflowTaskResultInput

def RecordedCall.entries (call : RecordedCall) : List RecordedEvent :=
  call.input.events.map fun event => ⟨call.options, call.input.runId, event⟩

/-- The answer says that the decision was recorded by this call. -/
def answersRecorded : Except (Fault EngineError) RecordedWorkflowTaskResult → Bool
  | .ok answer => answer.recorded
  | .error _ => false

/-- A decision's events are those of its commands, and its ids are new to the log it was
decided from. -/
structure FreshDecision (db : Database) (input : RecordWorkflowTaskResultInput) : Prop where
  commands : ∃ commands : List WorkflowCommand, input.events = commands.map commandToEvent
  distinct : (((db.log input.runId).take input.expectedSeq ++ input.events).filterMap createdName).Nodup

/-- Runs are started and the recorder is called, in any order, with any arguments, and a
statement of any call may fail. The calls that recorded a decision are kept. -/
inductive RecorderRun : List RecordedCall → Database → Prop
  | empty : RecorderRun [] emptyDatabase
  | started {calls : List RecordedCall} {db : Database} (run : RecorderRun calls db) (namespaceId : Nat)
      (queueName : String) (input : StartRunInput) (now : Instant) (budget : Option Nat) :
      RecorderRun calls (insertRun namespaceId queueName input now budget db).2
  | stepRecorded {calls : List RecordedCall} {db : Database} (run : RecorderRun calls db)
      (options : RecorderOptions) (input : RecordStepResultInput) (budget : Option Nat) :
      RecorderRun calls (recordStepResult options input budget db).2
  | decided {calls : List RecordedCall} {db : Database} (run : RecorderRun calls db) (options : RecorderOptions)
      (input : RecordWorkflowTaskResultInput) (budget : Option Nat) (decision : FreshDecision db input) :
      RecorderRun (calls ++ if answersRecorded (recordWorkflowTaskResult options input budget db).1 then
          [⟨options, input⟩] else [])
        (recordWorkflowTaskResult options input budget db).2

def WorkflowEvent.isContinuation : WorkflowEvent → Bool
  | .runContinuedAsNew _ => true
  | _ => false

/-- The terminal events of a step. -/
def WorkflowEvent.isOutcomeOf (stepId : String) : WorkflowEvent → Bool
  | .stepCompleted other _ | .stepFailed other _ _ => other == stepId
  | _ => false

def StepResultRow.key (result : StepResultRow) : RunId × String := (result.runId, result.stepId)

def Footprint.successors (foot : Footprint) (runId : RunId) : Nat :=
  foot.runs.countP fun row => row.continuedFromRunId == some runId

/-- What holds between two calls. -/
structure RecorderInvariant (calls : List RecordedCall) (db : Database) : Prop where
  coherent : db.Coherent none
  unpruned : db.snapshots = []
  names : DistinctNames (calls.flatMap RecordedCall.entries)
  asked : Asked (calls.flatMap RecordedCall.entries) db.footprint db.log
  made : Made (calls.flatMap RecordedCall.entries) db.footprint
  placed : ∀ call ∈ calls, ∃ before after, db.log call.input.runId = before ++ call.input.events ++ after ∧
    before.length = call.input.expectedSeq
  covered : ∀ runId, ∀ event ∈ db.log runId, WorkflowEvent.creates event = true →
    ∃ options, ⟨options, runId, event⟩ ∈ calls.flatMap RecordedCall.entries
  keyed : ∀ call ∈ calls, ∃ result ∈ db.taskResults,
    result.runId = call.input.runId ∧ result.taskKey = call.input.taskKey
  keys : calls.Pairwise fun one two =>
    ¬ (two.input.runId = one.input.runId ∧ two.input.taskKey = one.input.taskKey)
  successors : ∀ runId, db.footprint.successors runId = (db.log runId).countP WorkflowEvent.isContinuation
  resultKeys : (db.stepResults.map StepResultRow.key).Nodup
  results : ∀ runId stepId, (db.log runId).countP (WorkflowEvent.isOutcomeOf stepId) =
    db.stepResults.countP fun result => result.key == (runId, stepId)

section Effects

variable {options : RecorderOptions} {runId : RunId} {event : WorkflowEvent} {db db' : Database} {now : Instant}
  {stale : Option RunId}

theorem Adds.logsGoOn {row : RunRow} {timeouts : List TimerRow} {first : Option LastingTask} {workflowType : String}
    {input : JsValue} (adds : Adds row timeouts first (.runStarted workflowType input) db db') : LogsGoOn db db' := by
  intro other
  refine ⟨_, adds.logs other, fun event member => ?_⟩
  split at member
  · rw [List.mem_singleton.mp member]
    rfl
  · exact (List.not_mem_nil member).elim

/-- What creating for an event leaves of the other tables, and how many runs continue each run. -/
structure Leaves (runId : RunId) (event : WorkflowEvent) (db db' : Database) : Prop where
  logs : LogsGoOn db db'
  stepResults : db'.stepResults = db.stepResults
  taskResults : db'.taskResults = db.taskResults
  snapshots : db'.snapshots = db.snapshots
  successors : ∀ other, db'.footprint.successors other = db.footprint.successors other +
    if other = runId ∧ WorkflowEvent.isContinuation event = true then 1 else 0

theorem Adds.leaves {row : RunRow} {timeouts : List TimerRow} {first : Option LastingTask} {workflowType : String}
    {input : JsValue} (adds : Adds row timeouts first (.runStarted workflowType input) db db')
    (counted : ∀ other, row.continuedFromRunId = some other ↔ other = runId ∧ WorkflowEvent.isContinuation event = true) :
    Leaves runId event db db' := by
  have stepResults := congrArg Footprint.stepResults adds.foot
  have taskResults := congrArg Footprint.taskResults adds.foot
  have snapshots := congrArg Footprint.snapshots adds.foot
  refine ⟨adds.logsGoOn, stepResults, taskResults, snapshots, fun other => ?_⟩
  rw [adds.foot]
  simp only [Footprint.successors, List.countP_append, List.countP_singleton, beq_iff_eq, counted]

theorem Creates.leaves (creates : Creates options runId db event db') : Leaves runId event db db' := by
  cases creates with
  | timer absent =>
    exact ⟨.refl, rfl, rfl, rfl, by
      simp [Footprint.successors, WorkflowEvent.isContinuation, Database.footprint]⟩
  | stepTask queued found absent =>
    exact ⟨.refl, rfl, rfl, rfl, by
      simp [Footprint.successors, WorkflowEvent.isContinuation, Database.footprint, Database.addTask]⟩
  | child queued found absent opens =>
    obtain ⟨row', timeouts, columns, adds⟩ := opens.adds
    refine adds.leaves fun other => ?_
    rw [(RunRow.untimed_eq columns).2.2.2.2.2.2.2.2]
    constructor
    · rintro ⟨⟩
    · rintro ⟨_, ⟨⟩⟩
  | successor found opens =>
    obtain ⟨row', timeouts, columns, adds⟩ := opens.adds
    refine adds.leaves fun other => ?_
    rw [(RunRow.untimed_eq columns).2.2.2.2.2.2.2.2]
    change some _ = some other ↔ _
    rw [Database.run?_id found, Option.some_inj]
    exact ⟨fun same => ⟨same.symm, rfl⟩, fun same => same.1.symm⟩
  | nothing plain =>
    have quiet : WorkflowEvent.isContinuation event = false := by
      cases event <;> first | rfl | cases plain
    exact ⟨.refl, rfl, rfl, rfl, by simp [quiet]⟩
  | _ => exact ⟨.refl, rfl, rfl, rfl, by simp [WorkflowEvent.isContinuation]⟩

/-- What creating for all events of a decision keeps. -/
structure LeavesAll (runId : RunId) (events : List WorkflowEvent) (db db' : Database) : Prop where
  logs : LogsGoOn db db'
  stepResults : db'.stepResults = db.stepResults
  taskResults : db'.taskResults = db.taskResults
  snapshots : db'.snapshots = db.snapshots
  successors : ∀ other, db'.footprint.successors other = db.footprint.successors other +
    if other = runId then events.countP WorkflowEvent.isContinuation else 0

theorem CreatesAll.leaves {events : List WorkflowEvent} (creates : CreatesAll options runId events db db') :
    LeavesAll runId events db db' := by
  induction creates with
  | nil => exact ⟨.refl, rfl, rfl, rfl, by simp⟩
  | @cons event rest db db' db'' first _ ih =>
    have leaves := first.leaves
    refine ⟨leaves.logs.trans ih.logs, ih.stepResults.trans leaves.stepResults,
      ih.taskResults.trans leaves.taskResults, ih.snapshots.trans leaves.snapshots, fun other => ?_⟩
    rw [ih.successors, leaves.successors, List.countP_cons]
    by_cases same : other = runId
    · simp only [same, true_and, if_true]
      omega
    · simp [same]

theorem CreatesAll.artifacts {events : List WorkflowEvent} (creates : CreatesAll options runId events db db')
    {recorded : List RecordedEvent} (coherent : db.Coherent stale) (asked : Asked recorded db.footprint db.log)
    (made : Made recorded db.footprint) : Asked (recorded ++ events.map (⟨options, runId, ·⟩)) db'.footprint db'.log ∧
      Made (recorded ++ events.map (⟨options, runId, ·⟩)) db'.footprint := by
  induction creates generalizing recorded with
  | nil => simpa using ⟨asked, made⟩
  | cons first _ ih =>
    obtain ⟨asked', made'⟩ := first.artifacts coherent asked made
    simpa using ih (first.coherent coherent) asked' made'

end Effects

section Invariant

variable {calls : List RecordedCall} {db db' : Database} {now : Instant} {options : RecorderOptions}

theorem LogsGoOn.count (logs : LogsGoOn db db') {counts : WorkflowEvent → Bool}
    (plain : ∀ event, WorkflowEvent.isRecorded event = false → counts event = false) (runId : RunId) :
    (db'.log runId).countP counts = (db.log runId).countP counts := by
  obtain ⟨more, extended, quiet⟩ := logs runId
  have none : more.countP counts = 0 := by
    refine List.countP_eq_zero.mpr fun event member => ?_
    rw [plain event (quiet event member)]
    exact Bool.false_ne_true
  rw [extended, List.countP_append, none, Nat.add_zero]

theorem isContinuation_plain (event : WorkflowEvent) (plain : WorkflowEvent.isRecorded event = false) :
    WorkflowEvent.isContinuation event = false := by
  cases event <;> first | rfl | cases plain

theorem isOutcomeOf_plain (stepId : String) (event : WorkflowEvent)
    (plain : WorkflowEvent.isRecorded event = false) : WorkflowEvent.isOutcomeOf stepId event = false := by
  cases event <;> first | rfl | cases plain

theorem creates_recorded (event : WorkflowEvent) (creates : WorkflowEvent.creates event = true) :
    WorkflowEvent.isRecorded event = true := by
  cases event <;> first | rfl | cases creates

theorem commandToEvent_outcome (command : WorkflowCommand) (stepId : String) :
    WorkflowEvent.isOutcomeOf stepId (commandToEvent command) = false := by
  cases command <;> rfl

/-- What was recorded stays when the logs go on with other events. -/
theorem RecorderInvariant.goesOn (invariant : RecorderInvariant calls db) (coherent : db'.Coherent none)
    (logs : LogsGoOn db db') (asked : Asked (calls.flatMap RecordedCall.entries) db'.footprint db'.log)
    (made : Made (calls.flatMap RecordedCall.entries) db'.footprint) (stepResults : db'.stepResults = db.stepResults)
    (taskResults : db'.taskResults = db.taskResults) (snapshots : db'.snapshots = db.snapshots)
    (successors : ∀ runId, db'.footprint.successors runId = db.footprint.successors runId) : RecorderInvariant calls db' := by
  refine ⟨coherent, snapshots.trans invariant.unpruned, invariant.names, asked, made, fun call member => ?_,
    fun runId event member creates => ?_, ?_, invariant.keys, fun runId => ?_, ?_, fun runId stepId => ?_⟩
  · obtain ⟨before, after, split', length⟩ := invariant.placed call member
    obtain ⟨more, extended, -⟩ := logs call.input.runId
    exact ⟨before, after ++ more, by rw [extended, split', List.append_assoc], length⟩
  · obtain ⟨more, extended, plain⟩ := logs runId
    rw [extended] at member
    rcases List.mem_append.mp member with before | added
    · exact invariant.covered runId event before creates
    · have recorded := creates_recorded event creates
      rw [plain event added] at recorded
      cases recorded
  · rw [taskResults]
    exact invariant.keyed
  · rw [successors, logs.count isContinuation_plain]
    exact invariant.successors runId
  · rw [stepResults]
    exact invariant.resultKeys
  · rw [stepResults, logs.count (isOutcomeOf_plain stepId)]
    exact invariant.results runId stepId

theorem RecorderInvariant.empty : RecorderInvariant [] emptyDatabase := by
  constructor <;> try constructor
  all_goals simp [emptyDatabase, Database.footprint, Database.log, Database.storedEvents, Database.run?,
    Footprint.successors]

/-- What a start does: a run is opened, or nothing happens. -/
theorem insertRun_cases (namespaceId : Nat) (queueName : String) (input : StartRunInput) (budget : Option Nat)
    (coherent : db.Coherent none) : (insertRun namespaceId queueName input now budget db).2 = db ∨
      Opens now (startedRunRow namespaceId queueName input now db.nextId) input.stored .start db
        (insertRun namespaceId queueName input now budget db).2 := by
  have inserted : Ensures (· = db) (insertStartedRun namespaceId queueName input now) fun created db' =>
      created = none ∧ db' = db ∨ created = some (startedRunRow namespaceId queueName input now db.nextId) ∧
        db' = db.addRun (startedRunRow namespaceId queueName input now) := by
    refine .statement ?_
    rintro store answer store' rfl inserted
    split at inserted
    · cases inserted
      exact .inl ⟨rfl, rfl⟩
    · cases inserted
      exact .inr ⟨rfl, rfl⟩
  have spec : Ensures (· = db) (insertRunOn namespaceId queueName input now) fun _ db' => db' = db ∨
      Opens now (startedRunRow namespaceId queueName input now db.nextId) input.stored .start db db' := by
    unfold insertRunOn
    refine .then inserted ?_
    rintro _ _ (⟨rfl, same⟩ | ⟨rfl, rfl⟩)
    · exact .pure fun _ unchanged => .inl (unchanged.trans same)
    · refine opens_spec _ coherent.fresh rfl fun db' opens => .pure ?_
      rintro _ rfl
      exact .inr opens
  rcases withTransaction_cases spec budget db rfl with ⟨fault, failed⟩ | ⟨answer, db', done, outcome⟩
  · rw [insertRun, failed]
    exact .inl rfl
  · rw [insertRun, done]
    exact outcome

theorem RecorderInvariant.started (invariant : RecorderInvariant calls db) (namespaceId : Nat) (queueName : String)
    (input : StartRunInput) (budget : Option Nat) : RecorderInvariant calls (insertRun namespaceId queueName input now budget db).2 := by
  have outcome : (insertRun namespaceId queueName input now budget db).2 = db ∨ _ :=
    insertRun_cases namespaceId queueName input budget invariant.coherent
  rcases outcome with same | opens
  · rw [same]
    exact invariant
  · generalize (insertRun namespaceId queueName input now budget db).2 = db' at opens
    obtain ⟨row', timeouts, columns, adds⟩ := opens.adds
    have same := RunRow.untimed_eq columns
    have orphan : row'.childKey = none := by
      rw [RunRow.childKey, same.2.2.2.2.2.2.1]
      rfl
    refine invariant.goesOn (opens.coherent invariant.coherent rfl rfl rfl (by rintro _ ⟨⟩)) adds.logsGoOn
      (Asked.opened invariant.asked adds orphan) ?_ (congrArg Footprint.stepResults adds.foot)
      (congrArg Footprint.taskResults adds.foot) (congrArg Footprint.snapshots adds.foot) fun runId => ?_
    · rw [adds.foot]
      refine invariant.made.mono ?_ ?_ ?_
      · exact fun timer member => List.mem_append_left _ member
      · exact fun task member => List.mem_append_left _ member
      · exact fun row member => List.mem_append_left _ member
    · have none : row'.continuedFromRunId = none := same.2.2.2.2.2.2.2.2
      rw [adds.foot]
      simp [Footprint.successors, none]

theorem RecorderInvariant.stepRecorded (invariant : RecorderInvariant calls db) (input : RecordStepResultInput)
    (budget : Option Nat) : RecorderInvariant calls (recordStepResult options input budget db).2 := by
  have outcome : (recordStepResult options input budget db).2 = db ∧ _ ∨ _ := recordStepResult_cases input budget db
  rcases outcome with ⟨same, -⟩ | ⟨same, ⟨row, found, running⟩, absent⟩
  · rw [same]
    exact invariant
  · rw [same]
    have quiet : (toStepEvent input).isClosing = false ∧ WorkflowEvent.creates (toStepEvent input) = false ∧
        WorkflowEvent.isContinuation (toStepEvent input) = false := by
      unfold toStepEvent
      split <;> exact ⟨rfl, rfl, rfl⟩
    have named (stepId : String) : WorkflowEvent.isOutcomeOf stepId (toStepEvent input) = (input.stepId == stepId) := by
      unfold toStepEvent
      split <;> rfl
    have coherent : (db.appended input.runId [toStepEvent input] options.now).Coherent none :=
      invariant.coherent.appended found running (.inl rfl) (.inr fun event member => by
        rw [List.mem_singleton.mp member]
        exact quiet.1)
    have log (runId : RunId) : (db.stepRecorded options input).log runId =
        db.log runId ++ if runId = input.runId then [toStepEvent input] else [] := Database.appended_log
    have asked := invariant.asked.mono (fun _ => id) fun runId => ⟨_, log runId⟩
    refine ⟨coherent.congr rfl rfl rfl le_rfl, invariant.unpruned, invariant.names,
      { asked with }, { invariant.made with }, fun call member => ?_,
      fun runId event member creates => ?_, invariant.keyed, invariant.keys, fun runId => ?_, ?_, fun runId stepId => ?_⟩
    · obtain ⟨before, after, split', length⟩ := invariant.placed call member
      exact ⟨before, _, by rw [log, split', List.append_assoc], length⟩
    · rw [log] at member
      rcases List.mem_append.mp member with before | added
      · exact invariant.covered runId event before creates
      · split at added
        · rw [List.mem_singleton.mp added, quiet.2.1] at creates
          cases creates
        · exact (List.not_mem_nil added).elim
    · rw [log, List.countP_append]
      have none : (if runId = input.runId then [toStepEvent input] else []).countP WorkflowEvent.isContinuation = 0 := by
        split
        · simp [quiet.2.2]
        · rfl
      rw [none]
      exact invariant.successors runId
    · change ((db.stepResults ++ [_]).map StepResultRow.key).Nodup
      rw [List.map_append, List.nodup_append]
      refine ⟨invariant.resultKeys, List.nodup_singleton _, fun key before key' added => ?_⟩
      obtain ⟨result, member, rfl⟩ := List.mem_map.mp before
      rw [List.mem_singleton.mp added]
      intro same
      exact absent result member ⟨congrArg Prod.fst same, congrArg Prod.snd same⟩
    · change _ = (db.stepResults ++ [_]).countP _
      rw [log, List.countP_append, List.countP_append, invariant.results runId stepId]
      congr 1
      by_cases same : runId = input.runId
      · rw [if_pos same, List.countP_singleton, List.countP_singleton, named]
        simp [StepResultRow.key, same]
      · rw [if_neg same, List.countP_singleton]
        simp [StepResultRow.key, Ne.symm same]

theorem entries_singleton (call : RecordedCall) :
    [call].flatMap RecordedCall.entries = call.input.events.map (⟨call.options, call.input.runId, ·⟩) := by
  simp [RecordedCall.entries]

/-- A decision whose ids are new to its log shares no name with an earlier one. -/
theorem RecorderInvariant.names_append {input : RecordWorkflowTaskResultInput} (invariant : RecorderInvariant calls db)
    (distinct : ((db.log input.runId ++ input.events).filterMap createdName).Nodup) :
    DistinctNames (calls.flatMap RecordedCall.entries ++ input.events.map (⟨options, input.runId, ·⟩)) := by
  have named (events : List WorkflowEvent) :
      (events.map (⟨options, input.runId, ·⟩)).filterMap RecordedEvent.name =
        (events.filterMap createdName).map (input.runId, ·) := by
    rw [List.filterMap_map, List.map_filterMap]
    rfl
  rw [List.filterMap_append, List.nodup_append] at distinct
  unfold DistinctNames
  rw [List.filterMap_append, List.nodup_append, named]
  refine ⟨invariant.names, distinct.2.1.map fun _ _ same => (Prod.ext_iff.mp same).2, fun name before name' added => ?_⟩
  rintro rfl
  obtain ⟨entry, listed, named'⟩ := List.mem_filterMap.mp before
  obtain ⟨id, placed, rfl⟩ := List.mem_map.mp added
  obtain ⟨call, called, listed'⟩ := List.mem_flatMap.mp listed
  obtain ⟨event, member, rfl⟩ := List.mem_map.mp listed'
  obtain ⟨id', created, same⟩ := Option.map_eq_some_iff.mp named'
  obtain ⟨run, rfl⟩ := Prod.ext_iff.mp same
  change call.input.runId = input.runId at run
  obtain ⟨earlier, later, split', -⟩ := invariant.placed call called
  have logged : event ∈ db.log input.runId := by
    rw [← run, split']
    simp [member]
  exact distinct.2.2 _ (List.mem_filterMap.mpr ⟨event, logged, created⟩) _ placed rfl

/-- The log that a recorded decision was made from ends where the decision expected. -/
theorem RecorderInvariant.length_eq {input : RecordWorkflowTaskResultInput} {row : RunRow}
    (invariant : RecorderInvariant calls db) (found : db.run? input.runId = some row)
    (current : db.currentSequence input.runId = input.expectedSeq) : (db.log input.runId).length = input.expectedSeq := by
  have sequence := invariant.coherent.currentSequence_eq found
  have base : db.base input.runId = createInitialProjection := by
    rw [Database.base, invariant.unpruned]
    rfl
  rw [current, base] at sequence
  rw [sequence, Database.log, List.length_map]
  exact (Nat.zero_add _).symm

theorem RecorderInvariant.decided (invariant : RecorderInvariant calls db) (input : RecordWorkflowTaskResultInput)
    (decision : FreshDecision db input) (recorded : DecisionRecorded options input db db') :
    RecorderInvariant (calls ++ [⟨options, input⟩]) db' := by
  have coherent := recorded.coherent invariant.coherent
  obtain @⟨row, created, closed, found, running, unrecorded, current, creates, closes⟩ := recorded
  have length := invariant.length_eq found current
  obtain ⟨commands, asked⟩ := decision.commands
  have distinct := decision.distinct
  rw [← length, List.take_length] at distinct
  have lagging : (db.appended input.runId input.events options.now).Coherent (some input.runId) :=
    invariant.coherent.appended found running (.inr rfl) (.inl rfl)
  have log (runId : RunId) : (db.appended input.runId input.events options.now).log runId =
      db.log runId ++ if runId = input.runId then input.events else [] := Database.appended_log
  have kept : Asked (calls.flatMap RecordedCall.entries) db.footprint
      (db.appended input.runId input.events options.now).log :=
    invariant.asked.mono (fun _ => id) fun runId => ⟨_, log runId⟩
  obtain ⟨asked', made'⟩ := creates.artifacts lagging { kept with } { invariant.made with }
  have leaves := creates.leaves
  obtain ⟨foot, logs⟩ := closes.footprint
  have goesOn := leaves.logs.trans logs
  have entries : (calls ++ [(⟨options, input⟩ : RecordedCall)]).flatMap RecordedCall.entries =
      calls.flatMap RecordedCall.entries ++ input.events.map (⟨options, input.runId, ·⟩) := by
    rw [List.flatMap_append, entries_singleton]
  have grown (runId : RunId) : ∃ more, closed.log runId = db.log runId ++
      (if runId = input.runId then input.events else []) ++ more ∧
        ∀ event ∈ more, WorkflowEvent.isRecorded event = false := by
    obtain ⟨more, extended, plain⟩ := goesOn runId
    exact ⟨more, by rw [extended, log], plain⟩
  have counts (runId : RunId) (counted : WorkflowEvent → Bool)
      (plain : ∀ event, WorkflowEvent.isRecorded event = false → counted event = false) :
      (closed.log runId).countP counted = (db.log runId).countP counted +
        if runId = input.runId then input.events.countP counted else 0 := by
    rw [goesOn.count plain, log, List.countP_append]
    split <;> rfl
  have stepResults : closed.stepResults = db.stepResults :=
    (congrArg Footprint.stepResults foot).trans leaves.stepResults
  have taskResults : closed.taskResults = db.taskResults :=
    (congrArg Footprint.taskResults foot).trans leaves.taskResults
  refine ⟨coherent, ?_, ?_, ?_, ?_, ?_, ?_, ?_, ?_, ?_, ?_, ?_⟩
  · exact ((congrArg Footprint.snapshots foot).trans leaves.snapshots).trans invariant.unpruned
  · rw [entries]
    exact invariant.names_append distinct
  · rw [entries]
    rw [← foot] at asked'
    obtain asked'' := asked'.mono (fun _ => id) fun runId => (logs runId).imp fun _ => And.left
    exact { asked'' with }
  · rw [entries]
    rw [← foot] at made'
    exact { made' with }
  · intro call member
    change ∃ before after, closed.log _ = _ ∧ _
    obtain ⟨more, extended, -⟩ := grown call.input.runId
    rw [extended]
    rcases List.mem_append.mp member with before | added
    · obtain ⟨earlier, later, split', placed⟩ := invariant.placed call before
      exact ⟨earlier, _, by rw [split', List.append_assoc, List.append_assoc], placed⟩
    · rw [List.mem_singleton.mp added, if_pos rfl]
      exact ⟨db.log input.runId, more, rfl, length⟩
  · intro runId event member made
    rw [entries]
    obtain ⟨more, extended, plain⟩ := grown runId
    have member' : event ∈ db.log runId ++ (if runId = input.runId then input.events else []) ++ more :=
      extended ▸ member
    rcases List.mem_append.mp member' with old | added
    · rcases List.mem_append.mp old with before | now
      · obtain ⟨recorder, entry⟩ := invariant.covered runId event before made
        exact ⟨recorder, List.mem_append_left _ entry⟩
      · split at now
        · next same =>
            rw [same]
            exact ⟨options, List.mem_append_right _ (List.mem_map_of_mem now)⟩
        · exact (List.not_mem_nil now).elim
    · have recorded := creates_recorded event made
      rw [plain event added] at recorded
      cases recorded
  · intro call member
    change ∃ result ∈ closed.taskResults ++ [_], _
    rw [taskResults]
    rcases List.mem_append.mp member with before | added
    · obtain ⟨result, listed, same⟩ := invariant.keyed call before
      exact ⟨result, List.mem_append_left _ listed, same⟩
    · rw [List.mem_singleton.mp added]
      exact ⟨_, List.mem_append_right _ List.mem_cons_self, rfl, rfl⟩
  · rw [List.pairwise_append]
    refine ⟨invariant.keys, List.pairwise_singleton _ _, fun call member other added same => ?_⟩
    rw [List.mem_singleton.mp added] at same
    obtain ⟨result, listed, run, key⟩ := invariant.keyed call member
    exact unrecorded result listed ⟨run.trans same.1.symm, key.trans same.2.symm⟩
  · intro runId
    change closed.footprint.successors runId = (closed.log runId).countP _
    rw [foot, leaves.successors, counts runId _ isContinuation_plain]
    congr 1
    exact invariant.successors runId
  · change (closed.stepResults.map StepResultRow.key).Nodup
    rw [stepResults]
    exact invariant.resultKeys
  · intro runId stepId
    change (closed.log runId).countP _ = closed.stepResults.countP _
    have none : input.events.countP (WorkflowEvent.isOutcomeOf stepId) = 0 := by
      rw [List.countP_eq_zero, asked]
      intro event member
      obtain ⟨command, -, rfl⟩ := List.mem_map.mp member
      rw [commandToEvent_outcome]
      exact Bool.false_ne_true
    rw [stepResults, counts runId _ (isOutcomeOf_plain stepId), none, ite_self, Nat.add_zero]
    exact invariant.results runId stepId

/-- The invariant holds in every run of the recorder. -/
theorem recorderRun_invariant (run : RecorderRun calls db) : RecorderInvariant calls db := by
  induction run with
  | empty => exact .empty
  | started _ namespaceId queueName input now budget ih => exact ih.started namespaceId queueName input budget
  | stepRecorded _ options input budget ih => exact ih.stepRecorded input budget
  | @decided calls db _ options input budget decision ih =>
    have outcome : (recordWorkflowTaskResult options input budget db).2 = db ∧ _ ∨ _ :=
      recordWorkflowTaskResult_cases input budget ih.coherent
    rcases outcome with ⟨same, unrecorded⟩ | ⟨⟨answer, answered, yes⟩, recorded⟩
    · have silent : answersRecorded (recordWorkflowTaskResult options input budget db).1 = false := by
        cases answered : (recordWorkflowTaskResult options input budget db).1 with
        | ok answer => exact unrecorded answer answered
        | error fault => rfl
      rw [same, silent, if_neg Bool.false_ne_true, List.append_nil]
      exact ih
    · have loud : answersRecorded (recordWorkflowTaskResult options input budget db).1 = true := by
        rw [answered]
        exact yes
      rw [loud, if_pos rfl]
      exact ih.decided input decision recorded

end Invariant

def TaskRow.childKey (task : TaskRow) : Option (RunId × String) := task.lasting.bind LastingTask.childKey

/-- The rows and the logs after a run of the recorder. -/
structure RecordedOnce (calls : List RecordedCall) (db : Database) : Prop where
  consecutive : ∀ runId, (db.storedEvents runId).map EventRow.sequenceNumber = List.range' 1 (db.log runId).length
  once : calls.Pairwise fun one two =>
    ¬ (two.input.runId = one.input.runId ∧ two.input.taskKey = one.input.taskKey)
  contiguous : ∀ call ∈ calls, ((db.log call.input.runId).drop call.input.expectedSeq).take
    call.input.events.length = call.input.events
  covered : ∀ runId, ∀ event ∈ db.log runId, WorkflowEvent.creates event = true →
    ∃ call ∈ calls, call.input.runId = runId ∧ event ∈ call.input.events
  timers : ∀ runId timerId fireAt durationMs, .timerStarted timerId fireAt durationMs ∈ db.log runId →
    ∃ timer, db.timers.filter (fun timer => timer.key == (runId, timerId)) = [timer] ∧
      (isTimeoutTimerId timerId = false → timer.fireAt = fireAt)
  steps : ∀ call ∈ calls, ∀ stepId stepType input, .stepScheduled stepId stepType input ∈ call.input.events →
    match call.options.queueName with
    | some queueName => ∃ task,
      db.tasks.filter (fun task => task.stepKey == some (call.input.runId, stepId)) = [task] ∧
        task.payload = .stepTask stepId stepType input 0 ∧ task.queueName = queueName
    | none => db.tasks.filter (fun task => task.stepKey == some (call.input.runId, stepId)) = []
  children : ∀ runId childId workflowType input policy runTimeoutMs executionTimeoutMs,
    .childStarted childId workflowType input policy runTimeoutMs executionTimeoutMs ∈ db.log runId →
      ∃ child task, db.runs.filter (fun row => row.childKey == some (runId, childId)) = [child] ∧
        child.workflowType = workflowType ∧ (db.log child.id).head? = some (.runStarted workflowType input) ∧
        db.tasks.filter (fun task => task.childKey == some (runId, childId)) = [task] ∧ task.runId = child.id
  successors : ∀ runId input, .runContinuedAsNew input ∈ db.log runId →
    ∃ next, db.runs.filter (fun row => row.continuedFromRunId == some runId) = [next]
  results : ∀ runId stepId, (∃ result ∈ db.stepResults, result.runId = runId ∧ result.stepId = stepId) ↔
    (db.log runId).countP (WorkflowEvent.isOutcomeOf stepId) = 1

section Conclusion

variable {calls : List RecordedCall} {db : Database}

/-- A key that no two members share picks out one of them. -/
theorem filter_key {α κ : Type} [BEq κ] [LawfulBEq κ] {key : α → Option κ} {items : List α} {item : α} {value : κ}
    (distinct : (items.filterMap key).Nodup) (member : item ∈ items) (keyed : key item = some value) :
    items.filter (fun other => key other == some value) = [item] := by
  induction items with
  | nil => cases member
  | cons first rest ih =>
    have rest' : (rest.filterMap key).Nodup := distinct.sublist (List.Sublist.filterMap _ (List.sublist_cons_self _ _))
    by_cases same : key first = some value
    · rw [List.filter_cons_of_pos (by simpa using same)]
      rw [List.filterMap_cons_some same, List.nodup_cons] at distinct
      have none : rest.filter (fun other => key other == some value) = [] := by
        refine List.filter_eq_nil_iff.mpr fun other listed keyed' => distinct.1 ?_
        exact List.mem_filterMap.mpr ⟨other, listed, by simpa using keyed'⟩
      rw [none]
      rcases List.mem_cons.mp member with rfl | later
      · rfl
      · exact absurd (List.mem_filterMap.mpr ⟨item, later, keyed⟩) distinct.1
    · rw [List.filter_cons_of_neg (by simpa using same)]
      rcases List.mem_cons.mp member with rfl | later
      · exact absurd keyed same
      · exact ih rest' later

theorem TaskRow.lasting_bind_stepKey (task : TaskRow) : task.lasting.bind LastingTask.stepKey = task.stepKey := by
  cases keyed : task.stepKey with
  | none =>
    cases kept : task.lasting with
    | none => rfl
    | some lasting => exact (TaskRow.lasting_stepKey kept).trans keyed
  | some key =>
    obtain ⟨lasting, kept, keyed'⟩ := TaskRow.stepKey_lasting keyed
    rw [kept]
    exact keyed'

/-- A task that lasts is the row of a task. -/
theorem Database.lasting_task {lasting : LastingTask} (member : lasting ∈ db.footprint.tasks) :
    ∃ task ∈ db.tasks, task.lasting = some lasting ∧ task.payload = lasting.payload ∧
      task.queueName = lasting.queueName ∧ task.runId = lasting.runId := by
  obtain ⟨task, listed, kept⟩ := List.mem_filterMap.mp member
  refine ⟨task, listed, kept, ?_⟩
  unfold TaskRow.lasting at kept
  split at kept
  · cases kept
    exact ⟨rfl, rfl, rfl⟩
  · cases kept

theorem RecorderInvariant.steps (invariant : RecorderInvariant calls db) (call : RecordedCall) (called : call ∈ calls)
    (stepId stepType : String) (input : JsValue) (member : .stepScheduled stepId stepType input ∈ call.input.events) :
    match call.options.queueName with
    | some queueName => ∃ task,
      db.tasks.filter (fun task => task.stepKey == some (call.input.runId, stepId)) = [task] ∧
        task.payload = .stepTask stepId stepType input 0 ∧ task.queueName = queueName
    | none => db.tasks.filter (fun task => task.stepKey == some (call.input.runId, stepId)) = [] := by
  have entry : (⟨call.options, call.input.runId, .stepScheduled stepId stepType input⟩ : RecordedEvent) ∈
      calls.flatMap RecordedCall.entries := List.mem_flatMap.mpr ⟨call, called, List.mem_map_of_mem member⟩
  have asked {lasting : LastingTask} (listed : lasting ∈ db.footprint.tasks)
      (keyed : lasting.stepKey = some (call.input.runId, stepId)) :
      call.options.queueName = some lasting.queueName ∧ lasting.payload = .stepTask stepId stepType input 0 := by
    obtain ⟨id, named, same⟩ := Option.map_eq_some_iff.mp keyed
    obtain ⟨run, rfl⟩ := Prod.ext_iff.mp same
    change lasting.runId = call.input.runId at run
    obtain ⟨options, stepType', input', asked, queued, payload⟩ := invariant.asked.steps lasting listed _ named
    rw [run] at asked
    have one := invariant.names.same entry asked rfl rfl
    cases one
    exact ⟨queued, payload⟩
  split
  · next queueName queued =>
      obtain ⟨lasting, listed, keyed⟩ := invariant.made.steps _ _ _ _ _ entry (queued ▸ rfl)
      obtain ⟨task, member', kept, payload, queue, -⟩ := Database.lasting_task listed
      have distinct : (db.tasks.filterMap TaskRow.stepKey).Nodup := by
        have keys := invariant.asked.stepKeys
        rw [Database.footprint, List.filterMap_filterMap] at keys
        rwa [List.filterMap_congr fun task _ => TaskRow.lasting_bind_stepKey task] at keys
      obtain ⟨queued', payload'⟩ := asked listed keyed
      refine ⟨task, filter_key distinct member' ((TaskRow.lasting_stepKey kept).symm.trans keyed),
        payload.trans payload', queue.trans ?_⟩
      exact Option.some.inj (queued'.symm.trans queued)
  · next unqueued =>
      refine List.filter_eq_nil_iff.mpr fun task listed keyed => ?_
      obtain ⟨lasting, kept, keyed'⟩ := TaskRow.stepKey_lasting (by simpa using keyed)
      have queued := (asked (List.mem_filterMap.mpr ⟨task, listed, kept⟩) keyed').1
      rw [unqueued] at queued
      cases queued

theorem RecorderInvariant.timers (invariant : RecorderInvariant calls db) (runId : RunId) (timerId : String)
    (fireAt : Instant) (durationMs : Option JsNumber) (member : .timerStarted timerId fireAt durationMs ∈ db.log runId) :
    ∃ timer, db.timers.filter (fun timer => timer.key == (runId, timerId)) = [timer] ∧
      (isTimeoutTimerId timerId = false → timer.fireAt = fireAt) := by
  obtain ⟨options, entry⟩ := invariant.covered runId _ member rfl
  obtain ⟨timer, listed, keyed⟩ := invariant.made.timers _ _ _ _ _ entry
  have distinct : (db.timers.filterMap fun timer => some timer.key).Nodup := by
    rw [List.filterMap_eq_map']
    exact invariant.asked.timerKeys
  refine ⟨timer, ?_, fun own => ?_⟩
  · have only := filter_key distinct listed (congrArg some keyed)
    simpa only [Option.some_beq_some] using only
  · rcases invariant.asked.timers timer listed with reserved | ⟨options', durationMs', asked⟩
    · have same : timer.timerId = timerId := congrArg Prod.snd keyed
      rw [same, own] at reserved
      cases reserved
    · have named : (⟨options', timer.runId, .timerStarted timer.timerId timer.fireAt durationMs'⟩ : RecordedEvent).name =
          some (runId, .timer timerId) := by
        have run : timer.runId = runId := congrArg Prod.fst keyed
        have same : timer.timerId = timerId := congrArg Prod.snd keyed
        change some (timer.runId, CreatedName.timer timer.timerId) = _
        rw [run, same]
      have one := invariant.names.same entry asked rfl named
      cases one
      rfl

theorem RecorderInvariant.children (invariant : RecorderInvariant calls db) (runId : RunId)
    (childId workflowType : String) (input : JsValue) (policy : ParentClosePolicy) (run execution : Option JsNumber)
    (member : .childStarted childId workflowType input policy run execution ∈ db.log runId) :
    ∃ child task, db.runs.filter (fun row => row.childKey == some (runId, childId)) = [child] ∧
      child.workflowType = workflowType ∧ (db.log child.id).head? = some (.runStarted workflowType input) ∧
      db.tasks.filter (fun task => task.childKey == some (runId, childId)) = [task] ∧ task.runId = child.id := by
  obtain ⟨options, entry⟩ := invariant.covered runId _ member rfl
  obtain ⟨row, listed, keyed⟩ := invariant.made.children _ _ _ _ _ _ _ _ entry
  obtain ⟨options', input', policy', run', execution', asked, first, lasting, listed', keyed', owner⟩ :=
    invariant.asked.children row listed runId childId keyed
  have one := invariant.names.same entry asked rfl rfl
  obtain ⟨child, stored, rfl⟩ := List.mem_map.mp listed
  obtain ⟨task, kept', kept, payload, queue, owner'⟩ := Database.lasting_task listed'
  have runs : (db.runs.filterMap RunRow.childKey).Nodup := by
    have keys := invariant.asked.childKeys
    rwa [Database.footprint, List.filterMap_map] at keys
  have tasks : (db.tasks.filterMap TaskRow.childKey).Nodup := by
    have keys := invariant.asked.firstTaskKeys
    rwa [Database.footprint, List.filterMap_filterMap] at keys
  have keyedTask : task.childKey = some (runId, childId) := by
    rw [TaskRow.childKey, kept]
    exact keyed'
  injection one with _ _ event
  injection event with _ workflow same
  refine ⟨child, task, filter_key runs stored keyed, workflow.symm, ?_, filter_key tasks kept' keyedTask, ?_⟩
  · rw [workflow, same]
    exact first
  · exact owner'.trans owner

/-- A log that holds the continuation of its run holds one. -/
theorem RecorderInvariant.continuation_once (invariant : RecorderInvariant calls db) (runId : RunId) (input : JsValue)
    (member : .runContinuedAsNew input ∈ db.log runId) : (db.log runId).countP WorkflowEvent.isContinuation = 1 := by
  obtain ⟨stored, listed, same⟩ := List.mem_map.mp member
  obtain ⟨logged, owner⟩ := Database.storedEvents_mem listed
  obtain ⟨row, found⟩ := Option.isSome_iff_exists.mp (owner ▸ invariant.coherent.owned stored logged)
  have follows := invariant.coherent.follows runId row found
  have closing : stored.event.isClosing = true := by rw [same]; rfl
  by_cases running : row.status = .running
  · have open' := invariant.coherent.settled runId row found (Option.some_ne_none _) running stored listed
    rw [open'] at closing
    cases closing
  · have positive : 0 < (db.log runId).countP WorkflowEvent.isContinuation :=
      List.countP_pos_iff.mpr ⟨_, member, rfl⟩
    rcases (follows.onceClosed running).2 with ⟨-, empty⟩ | ⟨-, earlier, last, split', -, before⟩
    · rw [empty] at listed
      exact (List.not_mem_nil listed).elim
    · have none : (earlier.map EventRow.event).countP WorkflowEvent.isContinuation = 0 := by
        refine List.countP_eq_zero.mpr fun event placed => ?_
        obtain ⟨other, placed', rfl⟩ := List.mem_map.mp placed
        have quiet := before other placed'
        cases shape : other.event <;> rw [shape] at quiet <;> first | exact Bool.false_ne_true | cases quiet
      have few : ([last].map EventRow.event).countP WorkflowEvent.isContinuation ≤ 1 := List.countP_le_length
      rw [Database.log, split', List.map_append, List.countP_append, none, Nat.zero_add] at positive ⊢
      exact le_antisymm few positive

theorem RecorderInvariant.successor (invariant : RecorderInvariant calls db) (runId : RunId) (input : JsValue)
    (member : .runContinuedAsNew input ∈ db.log runId) :
    ∃ next, db.runs.filter (fun row => row.continuedFromRunId == some runId) = [next] := by
  have counted := invariant.successors runId
  rw [invariant.continuation_once runId input member] at counted
  rw [Footprint.successors, Database.footprint, List.countP_map] at counted
  refine List.length_eq_one_iff.mp ?_
  rw [← List.countP_eq_length_filter]
  exact counted

theorem RecorderInvariant.outcome (invariant : RecorderInvariant calls db) (runId : RunId) (stepId : String) :
    (∃ result ∈ db.stepResults, result.runId = runId ∧ result.stepId = stepId) ↔
      (db.log runId).countP (WorkflowEvent.isOutcomeOf stepId) = 1 := by
  have one : db.stepResults.countP (fun result => result.key == (runId, stepId)) ≤ 1 := by
    have few := List.nodup_iff_count_le_one.mp invariant.resultKeys (runId, stepId)
    rwa [List.count_eq_countP, List.countP_map] at few
  rw [invariant.results runId stepId]
  constructor
  · rintro ⟨result, member, rfl, rfl⟩
    exact le_antisymm one (List.countP_pos_iff.mpr ⟨result, member, by simp [StepResultRow.key]⟩)
  · intro counted
    obtain ⟨result, member, keyed⟩ := List.countP_pos_iff.mp (counted ▸ Nat.one_pos)
    rw [beq_iff_eq] at keyed
    exact ⟨result, member, congrArg Prod.fst keyed, congrArg Prod.snd keyed⟩

/-- Recording is atomic and happens once. A recorder without a queue name schedules no step tasks. -/
theorem recorder_recordedOnce (run : RecorderRun calls db) : RecordedOnce calls db ∧
    (∀ options input budget, answersRecorded (recordWorkflowTaskResult options input budget db).1 = false →
      (recordWorkflowTaskResult options input budget db).2 = db) ∧
    ∀ options input budget, (∀ answer, (recordStepResult options input budget db).1 = .ok answer →
      answer.recorded = false) → (recordStepResult options input budget db).2 = db := by
  have invariant := recorderRun_invariant run
  refine ⟨⟨fun runId => ?_, invariant.keys, fun call called => ?_, fun runId event member creates => ?_,
    invariant.timers, invariant.steps, invariant.children, invariant.successor, invariant.outcome⟩, ?_, ?_⟩
  · cases found : db.run? runId with
    | none =>
      have empty : db.storedEvents runId = [] := by
        refine List.filter_eq_nil_iff.mpr fun stored member same => ?_
        have owned := invariant.coherent.owned stored member
        rw [beq_iff_eq.mp same, found] at owned
        cases owned
      simp [Database.log, empty]
    | some row =>
      have numbered := (invariant.coherent.follows runId row found).numbered
      have base : db.base runId = createInitialProjection := by
        rw [Database.base, invariant.unpruned]
        rfl
      rw [base] at numbered
      rw [Database.log, List.length_map]
      exact numbered
  · obtain ⟨before, after, split', length⟩ := invariant.placed call called
    rw [split', ← length, List.append_assoc, List.drop_left, List.take_left]
  · obtain ⟨options, entry⟩ := invariant.covered runId event member creates
    obtain ⟨call, called, listed⟩ := List.mem_flatMap.mp entry
    obtain ⟨event', member', same⟩ := List.mem_map.mp listed
    cases same
    exact ⟨call, called, rfl, member'⟩
  · intro options input budget silent
    have outcome : (recordWorkflowTaskResult options input budget db).2 = db ∧ _ ∨ _ :=
      recordWorkflowTaskResult_cases input budget invariant.coherent
    rcases outcome with ⟨same, -⟩ | ⟨⟨answer, answered, yes⟩, -⟩
    · exact same
    · rw [answered] at silent
      rw [answersRecorded, yes] at silent
      cases silent
  · intro options input budget silent
    have spec : Ensures (· = db) (recordStepResultOn options input) _ := recordStepResultOn_spec input
    rcases withTransaction_cases spec budget db rfl with
      ⟨fault, failed⟩ | ⟨answer, db', done, ⟨-, rfl⟩ | ⟨recorded, -⟩⟩
    · rw [recordStepResult, failed]
    · rw [recordStepResult, done]
    · rw [recordStepResult, done] at silent
      rw [silent answer rfl] at recorded
      cases recorded

end Conclusion

section Examples

/-- A database with one run that was just started. -/
def startedDatabase : Database := (insertRun 0 "main" ⟨"order", .null, none, none, none⟩ .epoch none emptyDatabase).2

/-- The first decision of that run: it schedules a step. -/
def scheduleCharge : RecordWorkflowTaskResultInput := ⟨0, "task-1", 1, [.stepScheduled "step-1" "charge" .null]⟩

/-- The database after that decision, recorded with these options. -/
def chargedDatabase (options : RecorderOptions) : Database :=
  (recordWorkflowTaskResult options scheduleCharge none startedDatabase).2

theorem chargedDatabase_run (options : RecorderOptions)
    (recorded : answersRecorded (recordWorkflowTaskResult options scheduleCharge none startedDatabase).1 = true) :
    RecorderRun [⟨options, scheduleCharge⟩] (chargedDatabase options) := by
  have started : RecorderRun [] startedDatabase := .started .empty 0 "main" _ .epoch none
  have fresh : FreshDecision startedDatabase scheduleCharge :=
    ⟨⟨[.scheduleStep "step-1" "charge" .null], rfl⟩, by decide⟩
  have run := RecorderRun.decided started options scheduleCharge none fresh
  rw [recorded, if_pos rfl] at run
  exact run

/-- A decision recorded with a queue name. -/
theorem recorder_recordedOnce_charge : RecordedOnce [⟨⟨some "main", .epoch⟩, scheduleCharge⟩] (chargedDatabase ⟨some "main", .epoch⟩) :=
  (recorder_recordedOnce (chargedDatabase_run _ rfl)).1

/-- Without a queue name a scheduled step has no task. -/
theorem recordedOnce_needs_queueName : ¬ ∀ calls db, RecorderRun calls db → ∀ runId stepId stepType input,
    .stepScheduled stepId stepType input ∈ db.log runId →
      (db.tasks.filter fun task => task.stepKey == some (runId, stepId)).length = 1 := by
  intro each
  have run := chargedDatabase_run ⟨none, .epoch⟩ rfl
  have one := each _ _ run 0 "step-1" "charge" .null (List.mem_cons_of_mem _ List.mem_cons_self)
  have none : ((chargedDatabase ⟨none, .epoch⟩).tasks.filter fun task =>
      task.stepKey == some (0, "step-1")).length = 0 := rfl
  rw [none] at one
  cases one

end Examples

end DurableExecution.Engine

import DurableExecution.Engine.Operations

/-
This file follows one idempotency key of one namespace through the operations of the
engine: its run stays the only one, with one start event, one first workflow task and the
columns that a repeated request is compared with.
-/

namespace DurableExecution.Engine

open Workflow (JsValue WorkflowEvent WorkflowCommand commandToEvent Instant)
open Transaction
open Relation (ReflTransGen)

/-- The run that a key got, with the type and the input it was started with. -/
structure KeyedRun where
  runId : RunId
  workflowType : String
  input : JsValue

def RunRow.holds (row : RunRow) (namespaceId : Nat) (idempotencyKey : String) : Bool :=
  row.namespaceId == namespaceId && row.idempotencyKey == some idempotencyKey

def isRunStarted : WorkflowEvent → Bool
  | .runStarted .. => true
  | _ => false

def TaskPayload.isFirst : TaskPayload → Bool
  | .workflowTask .start => true
  | _ => false

/-- The input column of a row, by how many events the row has folded. -/
def FoldedInput (started : JsValue) (lastSequenceNumber : Nat) (input : JsValue) : Prop :=
  lastSequenceNumber = 0 ∧ input = started ∨ 0 < lastSequenceNumber ∧ input = JsValue.orEmpty started

/-- The key holds this run, and what the run was started with is still there. -/
structure Keyed (namespaceId : Nat) (idempotencyKey : String) (run : KeyedRun) (db : Database) : Prop where
  fresh : run.runId < db.nextId
  row : ∃ row, db.run? run.runId = some row ∧ row.holds namespaceId idempotencyKey = true ∧
    row.workflowType = run.workflowType ∧ FoldedInput run.input row.lastSequenceNumber row.input
  one : db.runs.countP (·.holds namespaceId idempotencyKey) = 1
  first : ∀ stored ∈ db.storedEvents run.runId, stored.sequenceNumber = 1 →
    stored.event = .runStarted run.workflowType run.input
  starts : ∀ stored ∈ db.storedEvents run.runId, isRunStarted stored.event = true → stored.sequenceNumber = 1
  started : (db.log run.runId).countP isRunStarted = 1
  task : db.tasks.countP (fun task => task.runId == run.runId && task.payload.isFirst) = 1

/-- How a key stands: no run holds it, or this one does. -/
structure KeyState (namespaceId : Nat) (idempotencyKey : String) (run : Option KeyedRun) (db : Database) : Prop where
  tasks : ∀ task ∈ db.tasks, task.runId < db.nextId
  free : run = none → ∀ row ∈ db.runs, row.holds namespaceId idempotencyKey = false
  held : ∀ keyed, run = some keyed → Keyed namespaceId idempotencyKey keyed db

section Changes

variable {namespaceId : Nat} {idempotencyKey : String} {run : Option KeyedRun} {db db' : Database} {now : Instant}
  {runId : RunId}

/-- Changes to other tables do not concern a key. -/
theorem KeyState.congr (keys : KeyState namespaceId idempotencyKey run db) (runs : db'.runs = db.runs)
    (events : db'.events = db.events) (tasks : db'.tasks = db.tasks) (ids : db'.nextId = db.nextId) :
    KeyState namespaceId idempotencyKey run db' := by
  have found (other : RunId) : db'.run? other = db.run? other := by rw [Database.run?, runs]; rfl
  have stored (other : RunId) : db'.storedEvents other = db.storedEvents other := by
    rw [Database.storedEvents, events]; rfl
  refine ⟨by rw [tasks, ids]; exact keys.tasks, by rw [runs]; exact keys.free, fun keyed same => ?_⟩
  obtain ⟨fresh, row, one, first, starts, started, task⟩ := keys.held keyed same
  refine ⟨ids ▸ fresh, ?_, runs ▸ one, ?_, ?_, ?_, tasks ▸ task⟩
  · rw [found]
    exact row
  · rw [stored]
    exact first
  · rw [stored]
    exact starts
  · rw [Database.log, stored]
    exact started

/-- The first event of a keyed run is stored. -/
theorem Keyed.current {keyed : KeyedRun} (held : Keyed namespaceId idempotencyKey keyed db) : 1 ≤ db.currentSequence keyed.runId := by
  have positive : 0 < (db.log keyed.runId).countP isRunStarted := by
    rw [held.started]
    exact Nat.one_pos
  obtain ⟨event, listed, start⟩ := List.countP_pos_iff.mp positive
  obtain ⟨stored, member, rfl⟩ := List.mem_map.mp listed
  have placed := held.starts stored member start
  have listed' : 1 ∈ (db.storedEvents keyed.runId).map EventRow.sequenceNumber := placed ▸ List.mem_map_of_mem member
  refine Nat.le_trans ?_ (Nat.le_max_left _ _)
  cases largest : ((db.storedEvents keyed.runId).map EventRow.sequenceNumber).max? with
  | none =>
    rw [List.max?_eq_none_iff] at largest
    rw [largest] at listed'
    cases listed'
  | some last => exact (List.max?_eq_some_iff.mp largest).2 1 listed'

/-- Events are appended, none of which starts a run. -/
theorem KeyState.appended {events : List WorkflowEvent} (keys : KeyState namespaceId idempotencyKey run db)
    (plain : ∀ event ∈ events, isRunStarted event = false) : KeyState namespaceId idempotencyKey run (db.appended runId events now) := by
  refine ⟨keys.tasks, keys.free, fun keyed same => ?_⟩
  have held := keys.held keyed same
  have added {stored : EventRow} (member : stored ∈ (db.appended runId events now).storedEvents keyed.runId) :
      stored ∈ db.storedEvents keyed.runId ∨ isRunStarted stored.event = false ∧ 1 < stored.sequenceNumber := by
    rw [Database.appended_storedEvents] at member
    rcases List.mem_append.mp member with before | new
    · exact .inl before
    · split at new
      · next same =>
          obtain ⟨-, listed, later⟩ := eventRows_mem new
          exact .inr ⟨plain _ listed, lt_of_le_of_lt (same ▸ held.current) later⟩
      · cases new
  refine ⟨held.fresh, held.row, held.one, ?_, ?_, ?_, held.task⟩
  · intro stored member placed
    rcases added member with before | ⟨-, later⟩
    · exact held.first stored before placed
    · exact absurd placed (Nat.ne_of_gt later)
  · intro stored member start
    rcases added member with before | ⟨quiet, -⟩
    · exact held.starts stored before start
    · cases quiet.symm.trans start
  · rw [Database.appended_log, List.countP_append, held.started]
    split
    · have none : events.countP isRunStarted = 0 :=
        List.countP_eq_zero.mpr fun event member => by simp [plain event member]
      rw [none]
    · rfl

/-- A task is added that is no first task. -/
theorem KeyState.addTask {task : Nat → TaskRow} (keys : KeyState namespaceId idempotencyKey run db)
    (known : (task db.nextId).runId < db.nextId) (later : (task db.nextId).payload.isFirst = false) :
    KeyState namespaceId idempotencyKey run (db.addTask task) := by
  refine ⟨fun other member => ?_, keys.free, fun keyed same => ?_⟩
  · rcases List.mem_append.mp member with before | new
    · exact Nat.lt_succ_of_lt (keys.tasks other before)
    · rw [List.mem_singleton.mp new]
      exact Nat.lt_succ_of_lt known
  · have held := keys.held keyed same
    refine ⟨Nat.lt_succ_of_lt held.fresh, held.row, held.one, held.first, held.starts, held.started, ?_⟩
    change (db.tasks ++ [task db.nextId]).countP _ = 1
    rw [List.countP_append, held.task, List.countP_singleton, later, Bool.and_false, if_neg Bool.false_ne_true]

/-- Waiting tasks are withdrawn. -/
theorem KeyState.withdrawTasks (keys : KeyState namespaceId idempotencyKey run db) :
    KeyState namespaceId idempotencyKey run (db.withdrawTasks runId) := by
  refine ⟨fun task member => ?_, keys.free, fun keyed same => ?_⟩
  · obtain ⟨old, listed, rfl⟩ := List.mem_map.mp member
    have known := keys.tasks old listed
    split <;> exact known
  · have held := keys.held keyed same
    refine ⟨held.fresh, held.row, held.one, held.first, held.starts, held.started, ?_⟩
    rw [← held.task]
    simp only [Database.withdrawTasks, List.countP_map]
    refine List.countP_congr fun task _ => ?_
    simp only [Function.comp_apply]
    split <;> rfl

theorem foldedInput_applied {started : JsValue} {workflowType : String} {projection next : RunProjection}
    {stored : EventRow} (first : stored.sequenceNumber = 1 → stored.event = .runStarted workflowType started)
    (starts : isRunStarted stored.event = true → stored.sequenceNumber = 1)
    (folded : FoldedInput started projection.lastSequenceNumber projection.input)
    (applied : applyEventToProjection projection stored = .ok next) : FoldedInput started next.lastSequenceNumber next.input := by
  obtain ⟨following, counted, -, -⟩ := applyEventToProjection_ok applied
  have later : 0 < next.lastSequenceNumber := by
    rw [counted, following]
    exact Nat.succ_pos _
  by_cases start : isRunStarted stored.event = true
  · have event := first (starts start)
    refine .inr ⟨later, ?_⟩
    unfold applyEventToProjection at applied
    rw [event] at applied
    split at applied
    · cases applied
    · split at applied
      · cases applied
      · cases applied
        rfl
  · have seen : 0 < projection.lastSequenceNumber := by
      by_contra unseen
      rw [Nat.not_lt, Nat.le_zero] at unseen
      rw [unseen] at following
      rw [first following] at start
      exact start rfl
    have kept : next.input = projection.input := by
      unfold applyEventToProjection at applied
      split at applied
      · cases applied
      · split at applied
        · cases applied
        · cases event : stored.event <;> rw [event] at applied start
          case runStarted => exact absurd rfl start
          all_goals
            simp only [terminalStateFor] at applied
            first
              | (cases applied; rfl)
              | (split at applied <;> cases applied; rfl)
    rcases folded with ⟨unseen, -⟩ | ⟨-, same⟩
    · exact absurd unseen (Nat.ne_of_gt seen)
    · exact .inr ⟨later, kept.trans same⟩

/-- A fold over the events of a keyed run, by induction on the events. -/
theorem foldedInput_folded {started : JsValue} {workflowType : String} {projection next : RunProjection} (events : List EventRow)
    (first : ∀ stored ∈ events, stored.sequenceNumber = 1 → stored.event = .runStarted workflowType started)
    (starts : ∀ stored ∈ events, isRunStarted stored.event = true → stored.sequenceNumber = 1)
    (input : FoldedInput started projection.lastSequenceNumber projection.input) (folded : foldRunEvents events projection = .ok next) :
    FoldedInput started next.lastSequenceNumber next.input := by
  induction events generalizing projection with
  | nil =>
    cases folded
    exact input
  | cons stored rest ih =>
    simp only [foldRunEvents, List.foldlM_cons, bind, Except.bind] at folded
    split at folded
    · cases folded
    · next middle applied =>
        refine ih (fun other member => first other (List.mem_cons_of_mem _ member))
          (fun other member => starts other (List.mem_cons_of_mem _ member)) ?_ folded
        exact foldedInput_applied (first stored List.mem_cons_self) (starts stored List.mem_cons_self) input applied

/-- The row of a run catches up with its log. -/
theorem KeyState.folded {row : RunRow} {next : RunProjection} (keys : KeyState namespaceId idempotencyKey run db)
    (found : db.run? runId = some row) (folds : foldRunEvents (db.unseen runId row.lastSequenceNumber) (projectionFromRow row) = .ok next) :
    KeyState namespaceId idempotencyKey run (db.updateRun runId (·.withProjection next)) := by
  have holds (other : RunRow) : (if other.id = runId then other.withProjection next else other).holds namespaceId
      idempotencyKey = other.holds namespaceId idempotencyKey := by
    split <;> rfl
  refine ⟨keys.tasks, fun none other member => ?_, fun keyed same => ?_⟩
  · obtain ⟨old, listed, rfl⟩ := List.mem_map.mp member
    rw [holds]
    exact keys.free none old listed
  · have held := keys.held keyed same
    obtain ⟨row', found', keyed', type, input⟩ := held.row
    refine ⟨held.fresh, ?_, ?_, held.first, held.starts, held.started, held.task⟩
    · rw [Database.updateRun_run? (·.withProjection next) fun _ => rfl]
      split
      · next same =>
          subst same
          cases found.symm.trans found'
          refine ⟨row.withProjection next, by rw [found]; rfl, keyed', type, ?_⟩
          have listed {stored : EventRow} (unseen : stored ∈ db.unseen keyed.runId row.lastSequenceNumber) :
              stored ∈ db.storedEvents keyed.runId :=
            (List.mem_filter.mp ((List.mem_insertionSort _).mp unseen)).1
          exact foldedInput_folded _ (fun stored unseen => held.first stored (listed unseen))
            (fun stored unseen => held.starts stored (listed unseen)) input folds
      · exact ⟨row', found', keyed', type, input⟩
    · rw [← held.one]
      simp only [Database.updateRun, List.countP_map]
      exact List.countP_congr fun other _ => by rw [Function.comp_apply, holds]

/-- Another run is opened that does not hold the key. -/
theorem KeyState.opened {row : RunRow} {timeouts : List TimerRow} {input : JsValue} {reason : WakeReason}
    {stale : Option RunId} (keys : KeyState namespaceId idempotencyKey run db) (coherent : db.Coherent stale)
    (numbered : row.id = db.nextId) (keyless : row.holds namespaceId idempotencyKey = false) :
    KeyState namespaceId idempotencyKey run (db.opened row timeouts input reason now) := by
  refine ⟨fun task member => ?_, fun none other member => ?_, fun keyed same => ?_⟩
  · rcases List.mem_append.mp member with before | new
    · exact Nat.lt_of_lt_of_le (keys.tasks task before) (Nat.le_add_right _ _)
    · rw [List.mem_singleton.mp new]
      change row.id < db.nextId + 2
      rw [numbered]
      exact Nat.lt_add_of_pos_right Nat.two_pos
  · rcases List.mem_append.mp member with before | new
    · exact keys.free none other before
    · rw [List.mem_singleton.mp new]
      exact keyless
  · have held := keys.held keyed same
    have apart : keyed.runId ≠ row.id := by
      rw [numbered]
      exact Nat.ne_of_lt held.fresh
    have stored : (db.opened row timeouts input reason now).storedEvents keyed.runId = db.storedEvents keyed.runId := by
      rw [Database.opened_storedEvents, if_neg apart, List.append_nil]
    refine ⟨Nat.lt_of_lt_of_le held.fresh (Nat.le_add_right _ _), ?_, ?_, ?_, ?_, ?_, ?_⟩
    · rw [Database.opened_run? coherent.fresh numbered, if_neg apart]
      exact held.row
    · change (db.runs ++ [row]).countP _ = 1
      rw [List.countP_append, held.one, List.countP_singleton, keyless, if_neg Bool.false_ne_true]
    · rw [stored]
      exact held.first
    · rw [stored]
      exact held.starts
    · rw [Database.log, stored]
      exact held.started
    · change (db.tasks ++ [newTask row.namespaceId row.id row.queueName (.workflowTask reason) now.ms
        (db.nextId + 1)]).countP _ = 1
      have other : (row.id == keyed.runId) = false := by simpa using Ne.symm apart
      rw [List.countP_append, held.task, List.countP_singleton]
      simp [newTask, other]

theorem Opens.keyState {row : RunRow} {input : JsValue} {reason : WakeReason} {stale : Option RunId}
    (opens : Opens now row input reason db db') (keys : KeyState namespaceId idempotencyKey run db)
    (coherent : db.Coherent stale) (numbered : row.id = db.nextId)
    (keyless : row.holds namespaceId idempotencyKey = false) : KeyState namespaceId idempotencyKey run db' := by
  obtain ⟨row', timeouts, columns, timed⟩ := opens
  have same : row'.id = row.id ∧ row'.namespaceId = row.namespaceId ∧ row'.idempotencyKey = row.idempotencyKey :=
    ⟨(congrArg RunRow.id columns :), (congrArg RunRow.namespaceId columns :), (congrArg RunRow.idempotencyKey columns :)⟩
  refine keys.opened coherent (same.1.trans numbered) ?_
  rw [RunRow.holds, same.2.1, same.2.2]
  exact keyless

theorem childOutcomeEvent_unstarted (childId : String) (projection : RunProjection) :
    isRunStarted (childOutcomeEvent childId projection) = false := by
  unfold childOutcomeEvent
  split <;> rfl

/-- A change of a closing. -/
theorem Settling.keyState (step : Settling now db db') (coherent : db.Coherent none)
    (keys : KeyState namespaceId idempotencyKey run db) : KeyState namespaceId idempotencyKey run db' := by
  cases step with
  | withdrawn found closed => exact keys.withdrawTasks
  | @woken runId row event reason found running waking =>
    have plain : ∀ other ∈ [event], isRunStarted other = false := by
      intro other member
      rw [List.mem_singleton.mp member]
      cases waking with
      | outcome childId projection => exact childOutcomeEvent_unstarted childId projection
      | cancel reason unasked => rfl
    refine (keys.appended plain).addTask ?_ ?_
    · exact coherent.fresh row (Database.run?_mem found)
    · cases waking <;> rfl
  | @terminated runId row reason next found running folds =>
    have plain : ∀ other ∈ [WorkflowEvent.runTerminated reason], isRunStarted other = false := by
      intro other member
      rw [List.mem_singleton.mp member]
      rfl
    have appended : KeyState namespaceId idempotencyKey run (db.appended runId [.runTerminated reason] now) :=
      keys.appended plain
    exact appended.folded found folds

theorem settling_keyState (steps : ReflTransGen (Settling now) db db') (coherent : db.Coherent none)
    (keys : KeyState namespaceId idempotencyKey run db) : KeyState namespaceId idempotencyKey run db' := by
  induction steps with
  | refl => exact keys
  | tail earlier step ih => exact step.keyState (settling_coherent earlier coherent) ih

theorem Closes.keyState {row : RunRow} {next : RunProjection} (closes : Closes now runId row next db db')
    (coherent : db.Coherent (some runId)) (keys : KeyState namespaceId idempotencyKey run db) :
    KeyState namespaceId idempotencyKey run db' := by
  have caughtUp : (db.updateRun runId (·.withProjection next)).Coherent none := by
    simpa using coherent.folded closes.found closes.folds
  exact settling_keyState closes.settled.steps caughtUp (keys.folded closes.found closes.folds)

/-- What a decision's event creates. -/
theorem Creates.keyState {options : RecorderOptions} {event : WorkflowEvent} {stale : Option RunId}
    (creates : Creates options runId db event db') (coherent : db.Coherent stale)
    (keys : KeyState namespaceId idempotencyKey run db) : KeyState namespaceId idempotencyKey run db' := by
  cases creates with
  | timer absent => exact keys.congr rfl rfl rfl rfl
  | stepTask queued found absent =>
    refine keys.addTask ?_ rfl
    have known := coherent.fresh _ (Database.run?_mem found)
    rw [Database.run?_id found] at known
    exact known
  | child queued found absent opens => exact opens.keyState keys coherent rfl (by simp [RunRow.holds, childRunRow])
  | successor found opens => exact opens.keyState keys coherent rfl (by simp [RunRow.holds, continuedRunRow])
  | timerKept | stepTaskKept | stepUnqueued | childKept | nothing => exact keys

theorem CreatesAll.keyState {options : RecorderOptions} {events : List WorkflowEvent} {stale : Option RunId}
    (creates : CreatesAll options runId events db db') (coherent : db.Coherent stale)
    (keys : KeyState namespaceId idempotencyKey run db) : KeyState namespaceId idempotencyKey run db' := by
  induction creates with
  | nil => exact keys
  | cons first _ ih => exact ih (first.coherent coherent) (first.keyState coherent keys)

theorem commandToEvent_plain (command : WorkflowCommand) : isRunStarted (commandToEvent command) = false := by
  cases command <;> rfl

/-- The operation does not start a run with this key. -/
def EngineOp.leaves (namespaceId : Nat) (idempotencyKey : String) : EngineOp → Prop
  | .startRun namespaceId' _ input => namespaceId' = namespaceId → input.idempotencyKey ≠ some idempotencyKey
  | _ => True

/-- Every other operation leaves a key as it stands. -/
theorem EngineStep.keyState {op : EngineOp} (step : EngineStep now db op db') (coherent : db.Coherent none)
    (keys : KeyState namespaceId idempotencyKey run db) (leaves : op.leaves namespaceId idempotencyKey) :
    KeyState namespaceId idempotencyKey run db' := by
  have plain (runId : RunId) (event : WorkflowEvent) (quiet : isRunStarted event = false) :
      KeyState namespaceId idempotencyKey run (db.appended runId [event] now) := by
    refine keys.appended fun listed member => ?_
    rw [List.mem_singleton.mp member]
    exact quiet
  cases step with
  | @started namespaceId' queueName input _ free opens =>
    refine opens.keyState keys coherent rfl ?_
    by_cases same : namespaceId' = namespaceId
    · simp [RunRow.holds, startedRunRow, leaves same]
    · simp [RunRow.holds, startedRunRow, same]
  | @stepRecorded _ input row found running first =>
    have quiet : isRunStarted (toStepEvent input) = false := by
      unfold toStepEvent
      split <;> rfl
    exact (plain input.runId _ quiet).congr rfl rfl rfl rfl
  | @decided queueName runId taskKey expectedSeq commands _ recorded =>
    obtain @⟨row, created, closed, found, running, unrecorded, current, creates, closes⟩ := recorded
    suffices kept : KeyState namespaceId idempotencyKey run closed from kept.congr rfl rfl rfl rfl
    have lagging : (db.appended runId (commands.map commandToEvent) now).Coherent (some runId) :=
      coherent.appended found running (.inr rfl) (.inl rfl)
    have recorded := creates.keyState lagging (keys.appended fun event member => by
      obtain ⟨command, -, rfl⟩ := List.mem_map.mp member
      exact commandToEvent_plain command)
    unfold ClosesIf at closes
    split at closes
    · obtain ⟨row', next, closes⟩ := closes
      exact closes.keyState (creates.coherent lagging) recorded
    · rw [closes]
      exact recorded
  | @woken op row event reason visibleAt timers found running wakes =>
    have appended := plain row.id event (by cases wakes <;> rfl)
    have known : row.id < db.nextId := coherent.fresh row (Database.run?_mem found)
    have woken : KeyState namespaceId idempotencyKey run ((db.appended row.id [event] now).addTask
        (newTask row.namespaceId row.id row.queueName (.workflowTask reason) visibleAt)) :=
      appended.addTask known (by cases wakes <;> rfl)
    exact woken.congr rfl rfl rfl rfl
  | @closed op runId row event timers middle found running closing closes =>
    obtain ⟨row', next, closes⟩ := closes
    have appended := plain runId event (by cases closing <;> rfl)
    have closed := closes.keyState (coherent.appended found running (.inr rfl) (.inl rfl)) appended
    exact closed.congr rfl rfl rfl rfl
  | @attempted row input found running =>
    have appended := plain input.runId
      (.stepAttemptFailed input.stepId input.attempt (attemptError input.error) input.retryAt) rfl
    exact appended.congr rfl rfl rfl rfl
  | timed timers => exact keys.congr rfl rfl rfl rfl

end Changes

end DurableExecution.Engine

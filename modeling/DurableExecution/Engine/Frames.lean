import DurableExecution.Engine.Operations

/-
This file walks once through the operations of the engine: a relation that each of their
writes keeps is kept by every operation.
-/

namespace DurableExecution.Engine

open Workflow (JsValue JsNumber WorkflowEvent WorkflowCommand ParentClosePolicy commandToEvent Instant)
open Transaction

/-- The events that record how an attempt of a step ended. -/
def isAttemptEvent : WorkflowEvent → Bool
  | .stepCompleted .. | .stepFailed .. | .stepAttemptFailed .. => true
  | _ => false

theorem commandToEvent_isAttemptEvent (command : WorkflowCommand) : isAttemptEvent (commandToEvent command) = false := by
  cases command <;> rfl

theorem childOutcomeEvent_isAttemptEvent (childId : String) (projection : RunProjection) :
    isAttemptEvent (childOutcomeEvent childId projection) = false := by
  unfold childOutcomeEvent
  split <;> rfl

/-- Where a new run stands: on its own, below an older run, or next in the chain of one. -/
inductive Database.Places (db : Database) (row : RunRow) : Prop
  | root (free : row.parentRunId = none)
  | child {parent : RunRow} (listed : parent ∈ db.runs) (hangs : row.parentRunId = some parent.id)
      (head : row.firstRunId = row.id) (named : row.parentChildId.isSome = true)
  | next {older : RunRow} (listed : older ∈ db.runs) (hangs : row.parentRunId = older.parentRunId)
      (chain : row.firstRunId = older.firstRunId)

/-- A row for a new run: it is open and its log is unread. -/
structure Database.Newborn (db : Database) (row : RunId → RunRow) : Prop where
  id : ∀ id, (row id).id = id
  running : ∀ id, (row id).status = .running
  unseen : ∀ id, (row id).lastSequenceNumber = 0
  placed : ∀ id, db.Places (row id)

/-- The events that the firing of a timer records. -/
def isTimerEvent : WorkflowEvent → Bool
  | .timerFired _ | .runTimedOut _ => true
  | _ => false

theorem commandToEvent_isTimerEvent (command : WorkflowCommand) : isTimerEvent (commandToEvent command) = false := by
  cases command <;> rfl

theorem childOutcomeEvent_isTimerEvent (childId : String) (projection : RunProjection) :
    isTimerEvent (childOutcomeEvent childId projection) = false := by
  unfold childOutcomeEvent
  split <;> rfl

/-- A relation that the writes to logs, to the rows that follow them and to tasks keep, as long
as the events that they append are quiet. Attempts of steps and timers may append others. -/
structure LogFrame (quiet : WorkflowEvent → Prop) (relation : Database → Database → Prop) : Prop where
  control : ∀ event, isAttemptEvent event = false → isTimerEvent event = false → quiet event
  refl : ∀ db, relation db db
  trans : ∀ one two three, relation one two → relation two three → relation one three
  appended : ∀ (db : Database) (rows : List EventRow), (∀ row ∈ rows, quiet row.event) →
    relation db { db with events := db.events ++ rows }
  projected : ∀ (db : Database) (runId : RunId) (row : RunRow) (next : RunProjection), db.run? runId = some row →
    foldRunEvents (db.unseen runId row.lastSequenceNumber) (projectionFromRow row) = .ok next →
    relation db (db.updateRun runId (·.withProjection next))
  tasked : ∀ (db : Database) (namespaceId : Nat) (runId : RunId) (queueName : String) (payload : TaskPayload)
    (visibleAt : Int), relation db (db.addTask (newTask namespaceId runId queueName payload visibleAt))
  withdrawn : ∀ (db : Database) (runId : RunId), relation db (db.withdrawTasks runId)

/-- A relation that every write of the operations keeps, as long as the events that they
append are quiet. Only attempts of steps may append others. -/
structure Frame (quiet : WorkflowEvent → Prop) (relation : Database → Database → Prop) : Prop where
  control : ∀ event, isAttemptEvent event = false → quiet event
  refl : ∀ db, relation db db
  trans : ∀ one two three, relation one two → relation two three → relation one three
  appended : ∀ (db : Database) (rows : List EventRow), (∀ row ∈ rows, quiet row.event) →
    relation db { db with events := db.events ++ rows }
  projected : ∀ (db : Database) (runId : RunId) (row : RunRow) (next : RunProjection), db.run? runId = some row →
    foldRunEvents (db.unseen runId row.lastSequenceNumber) (projectionFromRow row) = .ok next →
    relation db (db.updateRun runId (·.withProjection next))
  limited : ∀ (db : Database) (runId : RunId) (runTimeoutMs : Option Nat) (executionDeadline : Option Instant),
    relation db (db.updateRun runId fun row =>
      { row with runTimeoutMs := runTimeoutMs, executionDeadline := executionDeadline })
  opened : ∀ (db : Database) (row : RunId → RunRow), db.Newborn row → relation db (db.addRun row)
  tasked : ∀ (db : Database) (namespaceId : Nat) (runId : RunId) (queueName : String) (payload : TaskPayload)
    (visibleAt : Int), relation db (db.addTask (newTask namespaceId runId queueName payload visibleAt))
  withdrawn : ∀ (db : Database) (runId : RunId), relation db (db.withdrawTasks runId)
  timed : ∀ (db : Database) (timers : List TimerRow), relation db { db with timers := timers }
  decided : ∀ (db : Database) (rows : List TaskResultRow), relation db { db with taskResults := rows }

/-- The same, with what attempts of steps write. -/
structure WholeFrame (relation : Database → Database → Prop) : Prop extends Frame (fun _ => True) relation where
  resulted : ∀ (db : Database) (rows : List StepResultRow), relation db { db with stepResults := rows }
  attempted : ∀ (db : Database) (rows : List AttemptRow), relation db { db with stepAttempts := rows }

section LogWalk

variable {quiet : WorkflowEvent → Prop} {relation : Database → Database → Prop} (frame : LogFrame quiet relation)
  {now : Instant}

include frame

theorem LogFrame.read {A B : Type} {read : Database → A} {next : A → Tx B} (rest : ∀ answer, Keeps relation (next answer)) :
    Keeps relation (select read >>= next) := .bind frame.trans (.select frame.refl _) rest

omit frame in
/-- What is read stays known to what follows. -/
theorem readFrom_kept {A B : Type} {read : Database → A} {next : A → Tx B}
    (rest : ∀ db, Ensures (· = db) (next (read db)) fun _ db' => relation db db') : Keeps relation (select read >>= next) :=
  fun session answer session' ran => Ensures.read (rest session.store) session answer session' rfl ran

theorem LogFrame.then {A B : Type} {work : Tx A} {next : A → Tx B} (first : Keeps relation work)
    (rest : ∀ answer, Keeps relation (next answer)) : Keeps relation (work >>= next) := .bind frame.trans first rest

theorem LogFrame.done {A : Type} (answer : A) : Keeps relation (pure answer : Tx A) := .pure frame.refl answer

theorem liftExcept_kept {A : Type} (answer : Except EngineError A) : Keeps relation (liftExcept answer) := by
  cases answer with
  | error error => exact .raise error
  | ok answer => exact frame.done answer

theorem appendEvents_kept (runId : RunId) (expectedSeq : Nat) (events : List WorkflowEvent) (silent : ∀ event ∈ events, quiet event) :
    Keeps relation (appendEvents runId expectedSeq events now) := by
  refine frame.read fun currentSeq => ?_
  split
  · exact .raise _
  · split
    · exact frame.done _
    · refine frame.then (.statement fun db answer db' inserted => ?_) fun _ => frame.done _
      split at inserted
      · cases inserted
        exact frame.appended db _ fun row listed => silent row.event (eventRows_mem listed).2.1
      · cases inserted

/-- One event is appended. -/
theorem appendNext_kept (runId : RunId) (event : WorkflowEvent) (silent : quiet event) : Keeps relation (appendNext runId [event] now) :=
  frame.read fun currentSeq => appendEvents_kept frame runId currentSeq [event]
    fun _ listed => List.mem_singleton.mp listed ▸ silent

theorem refreshProjection_kept (runId : RunId) : Keeps relation (refreshProjection runId) := by
  intro session next session' ran
  obtain ⟨row, found, folds, same⟩ := refreshProjection_spec session next session' rfl ran
  rw [same]
  exact frame.projected session.store runId row next found folds

theorem insertWorkflowTask_kept (namespaceId : Nat) (runId : RunId) (queueName : String) (reason : WakeReason) :
    Keeps relation (insertWorkflowTask namespaceId runId queueName reason now) :=
  .write fun db => frame.tasked db namespaceId runId queueName _ _

theorem notifyParent_kept (runId : RunId) (projection : RunProjection) : Keeps relation (notifyParent runId projection now) := by
  unfold notifyParent
  split
  · exact frame.done _
  · refine frame.read fun link => ?_
    cases link with
    | none => exact frame.done _
    | some link =>
      refine frame.read fun found => ?_
      cases found with
      | none => exact frame.done _
      | some parent =>
        dsimp only
        split
        · exact frame.done _
        · have outcome := frame.control _ (childOutcomeEvent_isAttemptEvent link.2 projection)
            (childOutcomeEvent_isTimerEvent link.2 projection)
          refine frame.then (appendNext_kept frame _ _ outcome).discard fun _ => frame.read fun found => ?_
          cases found with
          | none => exact .raise _
          | some row => exact insertWorkflowTask_kept frame _ _ _ _

theorem requestCancellation_kept (runId : RunId) (namespaceId : Nat) (queueName : String) (reason : Option String) :
    Keeps relation (requestCancellation runId namespaceId queueName reason now) := by
  refine frame.read fun history => ?_
  split
  · exact frame.done _
  · exact frame.then (appendNext_kept frame _ _ (frame.control _ rfl rfl)).discard fun _ => insertWorkflowTask_kept frame _ _ _ _

theorem applyParentClosePolicy_kept {close : RunId → Tx Unit} (closes : ∀ runId, Keeps relation (close runId))
    (child : RunRow) : Keeps relation (applyParentClosePolicy close child now) := by
  unfold applyParentClosePolicy
  split
  · refine frame.read fun found => ?_
    cases found with
    | none => exact .raise _
    | some row => exact requestCancellation_kept frame _ _ _ _
  · exact frame.then (appendNext_kept frame _ _ (frame.control _ rfl rfl)).discard fun _ => closes _
  · exact frame.done _

/-- A closing, by induction on how deep the children may go. -/
theorem closeRunIfTerminal_kept (depth : Nat) (runId : RunId) : Keeps relation (closeRunIfTerminal now depth runId) := by
  induction depth generalizing runId with
  | zero => exact .raise _
  | succ depth ih =>
    refine frame.then (refreshProjection_kept frame runId) fun projection => ?_
    split
    · refine frame.then (.write fun db => frame.withdrawn db runId) fun _ => ?_
      refine frame.then (notifyParent_kept frame runId projection) fun _ => ?_
      refine frame.read fun children => ?_
      exact .forM frame.refl frame.trans fun child _ => applyParentClosePolicy_kept frame ih child
    · exact frame.done _

theorem closeRun_kept (runId : RunId) : Keeps relation (closeRun runId now) :=
  fun session answer session' ran => closeRunIfTerminal_kept frame _ runId session answer session' ran

theorem enqueueStepTask_kept (namespaceId : Nat) (runId : RunId) (queueName stepId stepType : String)
    (input : JsValue) : Keeps relation (enqueueStepTask namespaceId runId queueName stepId stepType input now) := by
  refine .statement fun db answer db' inserted => ?_
  split at inserted
  · cases inserted
    exact frame.refl db
  · cases inserted
    exact frame.tasked db namespaceId runId queueName _ _

theorem lockRunWithParent_kept (runId : RunId) : Keeps relation (lockRunWithParent runId) := by
  refine frame.read fun parentRunId => ?_
  cases parentRunId with
  | none => exact .select frame.refl _
  | some parent => exact frame.then (.discard (.select frame.refl _)) fun _ => .select frame.refl _

theorem lockOpenRun_kept (runId : RunId) : Keeps relation (lockOpenRun runId) := by
  refine frame.then (lockRunWithParent_kept frame runId) fun found => ?_
  cases found with
  | none => exact .raise _
  | some row =>
    dsimp only
    split
    · exact .raise _
    · exact frame.done _

theorem signalRunOn_kept (runId : RunId) (signalName : String) (payload : JsValue) :
    Keeps relation (signalRunOn now runId signalName payload) := by
  refine frame.read fun found => ?_
  cases found with
  | none => exact .raise _
  | some row =>
    dsimp only
    split
    · exact .raise _
    · exact frame.then (appendNext_kept frame _ _ (frame.control _ rfl rfl)).discard fun _ => insertWorkflowTask_kept frame _ _ _ _

theorem terminateRunOn_kept (runId : RunId) (reason : Option String) : Keeps relation (terminateRunOn now runId reason) := by
  refine frame.then (lockOpenRun_kept frame runId).discard fun _ => ?_
  exact frame.then (appendNext_kept frame _ _ (frame.control _ rfl rfl)).discard fun _ => closeRun_kept frame _

theorem cancelRunOn_kept (runId : RunId) (reason : Option String) : Keeps relation (cancelRunOn now runId reason) :=
  frame.then (lockOpenRun_kept frame runId) fun _ => requestCancellation_kept frame _ _ _ _

end LogWalk

/-- The writes of a frame without those that open runs and set timers. -/
theorem Frame.log {quiet : WorkflowEvent → Prop} {relation : Database → Database → Prop} (frame : Frame quiet relation) :
    LogFrame quiet relation where
  control event apart _ := frame.control event apart
  refl := frame.refl
  trans := frame.trans
  appended := frame.appended
  projected := frame.projected
  tasked := frame.tasked
  withdrawn := frame.withdrawn

section Walk

variable {quiet : WorkflowEvent → Prop} {relation : Database → Database → Prop} (frame : Frame quiet relation)
  {now : Instant}

include frame

theorem insertTimer_kept (runId : RunId) (timerId : String) (fireAt : Instant) : Keeps relation (insertTimer runId timerId fireAt) := by
  refine .statement fun db answer db' inserted => ?_
  split at inserted
  · cases inserted
    exact frame.refl db
  · cases inserted
    exact frame.timed db _

theorem timeoutDate_kept (start : Instant) (ms : Option Nat) : Keeps relation (timeoutDate start ms) := by
  cases ms with
  | none => exact frame.log.done _
  | some ms => exact frame.log.then (liftExcept_kept frame.log _) fun _ => frame.log.done _

theorem insertTimeoutTimer_kept (runId : RunId) (timerId : String) (fireAt : Option Instant) :
    Keeps relation (insertTimeoutTimer runId timerId fireAt) := by
  cases fireAt with
  | none => exact frame.log.done _
  | some fireAt => exact (insertTimer_kept frame runId timerId fireAt).discard

theorem applyRunTimeouts_kept (runId : RunId) (startedAt : Instant) (limits : RunTimeoutLimits) :
    Keeps relation (applyRunTimeouts runId startedAt limits) := by
  refine frame.log.then (liftExcept_kept frame.log _) fun runTimeoutMs => ?_
  refine frame.log.then (liftExcept_kept frame.log _) fun executionTimeoutMs => ?_
  refine frame.log.then ?_ fun executionDeadline => ?_
  · unfold executionDeadlineFor
    split
    · exact frame.log.done _
    · exact timeoutDate_kept frame _ _
  · split
    · exact frame.log.done _
    · refine frame.log.then (.write fun db => frame.limited db runId _ _) fun _ => ?_
      refine frame.log.then (timeoutDate_kept frame _ _) fun fireAt => frame.log.then (insertTimeoutTimer_kept frame _ _ _) fun _ => ?_
      exact insertTimeoutTimer_kept frame _ _ _

theorem appendStarted_kept (runId : RunId) (workflowType : String) (input : JsValue) :
    Keeps relation (appendEvents runId 0 [.runStarted workflowType input] now) :=
  appendEvents_kept frame.log runId 0 _ fun _ listed => frame.control _ (List.mem_singleton.mp listed ▸ rfl)

theorem openRun_kept {A : Type} (runId : RunId) (namespaceId : Nat) (queueName workflowType : String)
    (input : JsValue) (reason : WakeReason) (limits : RunTimeoutLimits) (answer : A) : Keeps relation (do
      applyRunTimeouts runId now limits
      discard (appendEvents runId 0 [.runStarted workflowType input] now)
      insertWorkflowTask namespaceId runId queueName reason now
      pure answer) :=
  frame.log.then (applyRunTimeouts_kept frame _ _ _) fun _ => frame.log.then (appendStarted_kept frame _ _ _).discard fun _ =>
    frame.log.then (insertWorkflowTask_kept frame.log _ _ _ _) fun _ => frame.log.done _

theorem createChildRun_kept (parentRunId : RunId) (queueName childId workflowType : String) (input : JsValue)
    (policy : ParentClosePolicy) (runTimeoutMs executionTimeoutMs : Option JsNumber) :
    Keeps relation (createChildRun parentRunId queueName childId workflowType input policy runTimeoutMs executionTimeoutMs now) := by
  refine frame.log.then (Keeps.statement fun db answer db' inserted => ?_) fun created => ?_
  · split at inserted
    · cases inserted
    · cases inserted
      exact frame.refl db
    · next parent found _ =>
        cases inserted
        have member := Database.run?_mem found
        exact frame.opened db _ ⟨fun _ => rfl, fun _ => rfl, fun _ => rfl, fun _ => .child member rfl rfl rfl⟩
  · cases created with
    | none => exact frame.log.then (.discard (.select frame.refl _)) fun _ => frame.log.done _
    | some created => exact openRun_kept frame _ _ _ _ _ _ _ _

/-- The next run of a chain hangs where the run before it hangs. -/
theorem createContinuedRun_kept (runId : RunId) (input : JsValue) : Keeps relation (createContinuedRun runId input now) := by
  refine readFrom_kept fun db => ?_
  cases found : db.run? runId with
  | none => exact .raise
  | some row =>
    have rest (next : RunId) : Keeps relation (do
        applyRunTimeouts next now ⟨row.runTimeoutMs.map fun (ms : Nat) => .finite ms, none, row.executionDeadline⟩
        discard (appendEvents next 0 [.runStarted row.workflowType input] now)
        insertWorkflowTask row.namespaceId next row.queueName (.continueAsNew runId) now) :=
      frame.log.then (applyRunTimeouts_kept frame _ _ _) fun _ => frame.log.then (appendStarted_kept frame _ _ _).discard fun _ =>
        insertWorkflowTask_kept frame.log _ _ _ _
    have inserted : Ensures (E := EngineError) (· = db)
        (statement fun db => some (db.nextId, db.addRun (continuedRunRow row input now))) fun _ => relation db := by
      refine .statement ?_
      rintro _ answer db' rfl answered
      cases answered
      have member := Database.run?_mem found
      exact frame.opened _ _ ⟨fun _ => rfl, fun _ => rfl, fun _ => rfl, fun _ => .next member rfl rfl⟩
    refine .then inserted fun next middle related => ?_
    rintro session answer session' rfl ran
    exact frame.trans _ _ _ related (rest next session answer session' ran)

theorem createFor_kept (options : RecorderOptions) (runId : RunId) (event : WorkflowEvent) :
    Keeps relation (createFor options runId event) := by
  unfold createFor
  split
  · refine frame.log.then (.discard (.select frame.refl _)) fun _ => ?_
    split
    · exact .raise _
    · exact (createChildRun_kept frame _ _ _ _ _ _ _ _).discard
  · exact createContinuedRun_kept frame _ _
  · split
    · exact frame.log.done _
    · refine frame.log.read fun found => ?_
      cases found with
      | none => exact .raise _
      | some row =>
        exact (enqueueStepTask_kept frame.log _ _ _ _ _ _).discard
  · exact (insertTimer_kept frame _ _ _).discard
  · exact frame.log.done _

theorem recordWorkflowTaskResultOn_kept (options : RecorderOptions) (input : RecordWorkflowTaskResultInput)
    (silent : ∀ event ∈ input.events, quiet event) : Keeps relation (recordWorkflowTaskResultOn options input) := by
  refine frame.log.then (lockRunWithParent_kept frame.log _) fun row => frame.log.then (.discard (.select frame.refl _)) fun _ => ?_
  refine frame.log.read fun previous => ?_
  cases previous with
  | some previous => exact frame.log.done _
  | none =>
    dsimp only
    split
    · refine frame.log.then (appendEvents_kept frame.log _ _ _ silent) fun stored => ?_
      refine frame.log.then (.forM frame.refl frame.trans fun event _ => createFor_kept frame _ _ event) fun _ => ?_
      refine frame.log.then ?_ fun _ => frame.log.then (.statement fun db answer db' inserted => ?_) fun _ => frame.log.done _
      · unfold closeAfter
        split
        · exact closeRun_kept frame.log _
        · exact frame.log.done _
      · split at inserted
        · cases inserted
          exact frame.decided db _
        · cases inserted
    · exact frame.log.done _

theorem insertRunOn_kept (namespaceId : Nat) (queueName : String) (input : StartRunInput) :
    Keeps relation (insertRunOn namespaceId queueName input now) := by
  refine frame.log.then (Keeps.statement fun db answer db' inserted => ?_) fun created => ?_
  · split at inserted
    · cases inserted
      exact frame.refl db
    · cases inserted
      exact frame.opened db _ ⟨fun _ => rfl, fun _ => rfl, fun _ => rfl, fun _ => .root rfl⟩
  · cases created with
    | none => exact frame.log.done _
    | some created => exact openRun_kept frame _ _ _ _ _ _ _ _

theorem timeOutRunOn_kept (runId : RunId) (timerId : String) : Keeps relation (timeOutRunOn now runId timerId) := by
  refine frame.log.then (lockRunWithParent_kept frame.log runId) fun row => ?_
  split
  · exact frame.log.done _
  · refine frame.log.then (appendNext_kept frame.log _ _ (frame.control _ rfl)).discard fun _ => ?_
    exact frame.log.then (closeRun_kept frame.log _) fun _ => frame.log.done _

theorem fireNextOn_kept (queueName : String) (runId : RunId) (timerId : String) :
    Keeps relation (fireNextOn queueName runId timerId now) := by
  refine frame.log.read fun due => ?_
  cases due with
  | none => exact frame.log.done _
  | some timer =>
    dsimp only
    split
    · exact frame.log.then (timeOutRunOn_kept frame runId timerId) fun _ => .write fun db => frame.timed db _
    · refine frame.log.read fun found => ?_
      cases found with
      | none => exact .write fun db => frame.timed db _
      | some row =>
        refine frame.log.then (appendNext_kept frame.log _ _ (frame.control _ rfl)).discard fun _ => ?_
        exact frame.log.then (.write fun db => frame.timed db _) fun _ => .write fun db => frame.tasked db _ _ _ _ _

/-- The operations that record how an attempt of a step ended. -/
def EngineOp.recordsAttempt : EngineOp → Bool
  | .recordStepResult .. | .recordFailure _ => true
  | _ => false

/-- Every other operation keeps the relation. -/
theorem EngineOp.work_kept (op : EngineOp) (apart : op.recordsAttempt = false) : Keeps relation (op.work now) := by
  cases op with
  | startRun namespaceId queueName input => exact (insertRunOn_kept frame namespaceId queueName input).discard
  | recordStepResult | recordFailure => cases apart
  | recordWorkflowTaskResult queueName runId taskKey expectedSeq commands =>
    refine (recordWorkflowTaskResultOn_kept frame _ _ fun event listed => ?_).discard
    obtain ⟨command, -, rfl⟩ := List.mem_map.mp listed
    exact frame.control _ (commandToEvent_isAttemptEvent command)
  | signalRun runId signalName payload => exact signalRunOn_kept frame.log runId signalName payload
  | cancelRun runId reason => exact cancelRunOn_kept frame.log runId reason
  | terminateRun runId reason => exact terminateRunOn_kept frame.log runId reason
  | fireNext queueName runId timerId => exact fireNextOn_kept frame queueName runId timerId

omit frame

variable (whole : WholeFrame relation)

include whole

theorem recordStepResultOn_kept (options : RecorderOptions) (input : RecordStepResultInput) :
    Keeps relation (recordStepResultOn options input) := by
  refine whole.toFrame.log.read fun row => ?_
  split
  · refine whole.toFrame.log.read fun first => ?_
    cases first with
    | some first => exact whole.toFrame.log.done _
    | none =>
      refine whole.toFrame.log.then (.statement fun db answer db' inserted => ?_) fun _ => ?_
      · split at inserted
        · cases inserted
          exact whole.resulted db _
        · cases inserted
      · exact whole.toFrame.log.then (appendNext_kept whole.toFrame.log _ _ trivial).discard fun _ => whole.toFrame.log.done _
  · exact whole.toFrame.log.done _

theorem recordFailureOn_kept (input : RecordAttemptFailureInput) : Keeps relation (recordFailureOn input now) := by
  refine whole.toFrame.log.then (.discard (.select whole.refl _)) fun _ => ?_
  refine whole.toFrame.log.then (.statement fun db answer db' inserted => ?_) fun inserted => ?_
  · split at inserted
    · cases inserted
      exact whole.refl db
    · split at inserted
      · cases inserted
        exact whole.attempted db _
      · cases inserted
  · split
    · exact whole.toFrame.log.then (appendNext_kept whole.toFrame.log _ _ trivial).discard fun _ => whole.toFrame.log.done _
    · exact whole.toFrame.log.done _

/-- Every operation keeps the relation. -/
theorem EngineOp.work_whole (op : EngineOp) : Keeps relation (op.work now) := by
  by_cases apart : op.recordsAttempt = false
  · exact op.work_kept whole.toFrame apart
  · cases op with
    | recordStepResult queueName input => exact (recordStepResultOn_kept whole _ input).discard
    | recordFailure input => exact (recordFailureOn_kept whole input).discard
    | _ => exact absurd rfl apart

end Walk

/-- An entry of a list in which one was replaced is the new one, or an old one elsewhere. -/
theorem listed_of_set {A : Type} {entries : List A} {index other : Nat} {changed entry : A}
    (listed : (entries.set index changed)[other]? = some entry) :
    index = other ∧ entry = changed ∨ index ≠ other ∧ entries[other]? = some entry := by
  by_cases here : index = other
  · subst here
    rw [List.getElem?_set_self', Option.map_eq_map, Option.map_eq_some_iff] at listed
    obtain ⟨_, -, same⟩ := listed
    exact .inl ⟨rfl, same.symm⟩
  · rw [List.getElem?_set_ne here] at listed
    exact .inr ⟨here, listed⟩

end DurableExecution.Engine

import DurableExecution.Engine.Coherence
import DurableExecution.Engine.Recorder
import DurableExecution.Engine.RunService

/-
This file says what a decision's event creates in the database, and that it keeps the
database coherent.
-/

namespace DurableExecution.Engine

open Workflow (JsValue WorkflowEvent ParentClosePolicy Instant JsNumber)
open Transaction

/-- A row without its timeout columns. -/
def RunRow.untimed (row : RunRow) : RunRow := { row with runTimeoutMs := none, executionDeadline := none }

def TimerRow.key (timer : TimerRow) : RunId × String := (timer.runId, timer.timerId)

/-- The database after a run was opened with its timeouts, its first event and its first task. -/
def Database.opened (db : Database) (row : RunRow) (timeouts : List TimerRow) (input : JsValue)
    (reason : WakeReason) (now : Instant) : Database :=
  { db with
    runs := db.runs ++ [row]
    events := db.events ++ [⟨row.id, 1, .runStarted row.workflowType input, now⟩]
    timers := db.timers ++ timeouts
    tasks := db.tasks ++ [newTask row.namespaceId row.id row.queueName (.workflowTask reason) now.ms (db.nextId + 1)]
    nextId := db.nextId + 2 }

/-- These timers are the timeouts of one run, which other timers do not hide. -/
structure Timeouts (db : Database) (runId : RunId) (timeouts : List TimerRow) : Prop where
  own : ∀ timer ∈ timeouts, timer.runId = runId ∧ isTimeoutTimerId timer.timerId = true
  distinct : (db.timers.map TimerRow.key).Nodup → ((db.timers ++ timeouts).map TimerRow.key).Nodup

/-- A run is opened whose row is this one up to its timeout columns. -/
inductive Opens (now : Instant) (row : RunRow) (input : JsValue) (reason : WakeReason) (db : Database) :
    Database → Prop
  | intro (row' : RunRow) (timeouts : List TimerRow) (columns : row'.untimed = row.untimed)
      (timed : Timeouts db row.id timeouts) : Opens now row input reason db (db.opened row' timeouts input reason now)

section Opening

variable {now : Instant} {db : Database} {runId : RunId}

theorem insertTimer_spec (timerId : String) (fireAt : Instant) :
    Ensures (· = db) (insertTimer runId timerId fireAt) fun _ db' =>
      db' = db ∧ (∃ timer ∈ db.timers, timer.key = (runId, timerId)) ∨
      db' = { db with timers := db.timers ++ [⟨runId, timerId, fireAt, .pending⟩] } ∧
        ∀ timer ∈ db.timers, timer.key ≠ (runId, timerId) := by
  refine .statement ?_
  rintro store answer store' rfl inserted
  split at inserted
  · next present =>
      cases inserted
      simp only [List.any_eq_true, Bool.and_eq_true, beq_iff_eq] at present
      obtain ⟨timer, listed, run, id⟩ := present
      exact .inl ⟨rfl, timer, listed, Prod.ext run id⟩
  · next absent =>
      cases inserted
      refine .inr ⟨rfl, fun timer listed same => absent ?_⟩
      simp only [List.any_eq_true, Bool.and_eq_true, beq_iff_eq]
      exact ⟨timer, listed, congrArg Prod.fst same, congrArg Prod.snd same⟩

theorem Timeouts.nil : Timeouts db runId [] := ⟨fun _ member => (List.not_mem_nil member).elim, by simp⟩

/-- A timeout's timer is inserted or left as it is. -/
theorem insertTimeoutTimer_spec {timeouts : List TimerRow} (timerId : String) (fireAt : Option Instant)
    (reserved : isTimeoutTimerId timerId = true) (timed : Timeouts db runId timeouts) :
    Ensures (· = { db with timers := db.timers ++ timeouts }) (insertTimeoutTimer runId timerId fireAt)
      fun _ db' => ∃ timeouts', db' = { db with timers := db.timers ++ timeouts' } ∧ Timeouts db runId timeouts' := by
  cases fireAt with
  | none => exact .pure fun _ same => ⟨timeouts, same, timed⟩
  | some fireAt =>
    refine (insertTimer_spec timerId fireAt).discard.mono (fun _ same => same) ?_
    rintro _ db' ⟨_, ⟨rfl, _⟩ | ⟨rfl, absent⟩⟩
    · exact ⟨timeouts, rfl, timed⟩
    · refine ⟨timeouts ++ [⟨runId, timerId, fireAt, .pending⟩], by simp, ?_, fun distinct => ?_⟩
      · intro timer member
        rcases List.mem_append.mp member with before | added
        · exact timed.own timer before
        · rw [List.mem_singleton.mp added]
          exact ⟨rfl, reserved⟩
      · rw [← List.append_assoc, List.map_append, List.nodup_append]
        refine ⟨timed.distinct distinct, by simp, fun key before key' added => ?_⟩
        obtain ⟨timer, listed, rfl⟩ := List.mem_map.mp before
        rw [List.map_singleton, List.mem_singleton] at added
        rw [added]
        exact absent timer listed

theorem liftExcept_spec {A : Type} (answer : Except EngineError A) : Ensures (· = db) (liftExcept answer) fun _ => (· = db) := by
  cases answer with
  | error error => exact .raise
  | ok answer => exact .pure fun _ same => same

theorem timeoutDate_spec (start : Instant) (ms : Option Nat) : Ensures (· = db) (timeoutDate start ms) fun _ => (· = db) := by
  cases ms with
  | none => exact .pure fun _ same => same
  | some ms => exact .bind (liftExcept_spec _) fun deadline => .pure fun _ same => same

/-- The limits of a run become its columns and its timers. -/
theorem applyRunTimeouts_spec (startedAt : Instant) (limits : RunTimeoutLimits) :
    Ensures (· = db) (applyRunTimeouts runId startedAt limits) fun _ db' => ∃ change timeouts,
      (∀ row : RunRow, (change row).untimed = row.untimed) ∧ Timeouts db runId timeouts ∧
        db' = { db.updateRun runId change with timers := db.timers ++ timeouts } := by
  unfold applyRunTimeouts
  refine .bind (liftExcept_spec _) fun runTimeoutMs => .bind (liftExcept_spec _) fun executionTimeoutMs => ?_
  refine .keeps ?_ fun executionDeadline => ?_
  · unfold executionDeadlineFor
    split
    · exact .pure fun _ same => same
    · exact timeoutDate_spec _ _
  · split
    · refine .pure ?_
      rintro _ rfl
      exact ⟨id, [], fun _ => rfl, .nil, by simp [Database.updateRun]⟩
    · obtain ⟨change, changed, columns⟩ : ∃ change, (fun row : RunRow => { row with
          runTimeoutMs := runTimeoutMs, executionDeadline := executionDeadline }) = change ∧
            ∀ row : RunRow, (change row).untimed = row.untimed := ⟨_, rfl, fun _ => rfl⟩
      rw [changed]
      refine .wrote (.bind (timeoutDate_spec _ _) fun fireAt => ?_)
      have none : Ensures (· = db.updateRun runId change) (insertTimeoutTimer runId runTimeoutTimerId fireAt)
          fun _ db' => ∃ timeouts, db' = { db.updateRun runId change with timers := db.timers ++ timeouts } ∧
            Timeouts (db.updateRun runId change) runId timeouts :=
        (insertTimeoutTimer_spec _ fireAt rfl .nil).mono (fun store same => by rw [same, List.append_nil]) fun _ _ => id
      refine .then none ?_
      rintro _ _ ⟨timeouts, rfl, timed⟩
      refine (insertTimeoutTimer_spec _ executionDeadline rfl timed).mono (fun _ same => same) ?_
      rintro _ db' ⟨timeouts', rfl, timed'⟩
      exact ⟨change, timeouts', columns, ⟨timed'.own, timed'.distinct⟩, rfl⟩

variable {row : RunRow} {input : JsValue} {reason : WakeReason} {stale : Option RunId}

theorem RunRow.untimed_eq {row row' : RunRow} (same : row'.untimed = row.untimed) : row'.id = row.id ∧
    row'.namespaceId = row.namespaceId ∧ row'.queueName = row.queueName ∧ row'.workflowType = row.workflowType ∧
      row'.status = row.status ∧ row'.lastSequenceNumber = row.lastSequenceNumber ∧
      row'.parentRunId = row.parentRunId ∧ row'.parentChildId = row.parentChildId ∧ row'.continuedFromRunId = row.continuedFromRunId :=
  ⟨(congrArg RunRow.id same :), (congrArg RunRow.namespaceId same :), (congrArg RunRow.queueName same :),
    (congrArg RunRow.workflowType same :), (congrArg RunRow.status same :),
    (congrArg RunRow.lastSequenceNumber same :), (congrArg RunRow.parentRunId same :),
    (congrArg RunRow.parentChildId same :), (congrArg RunRow.continuedFromRunId same :)⟩

/-- The statements that open a run after its row was inserted. -/
theorem opens_spec {B : Type} {next : Unit → Tx B} {last : B → Database → Prop} (limits : RunTimeoutLimits)
    (fresh : ∀ other ∈ db.runs, other.id < db.nextId) (numbered : row.id = db.nextId)
    (rest : ∀ db', Opens now row input reason db db' → Ensures (· = db') (next ()) last) :
    Ensures (· = { db with runs := db.runs ++ [row], nextId := db.nextId + 1 })
      (applyRunTimeouts row.id now limits >>= fun _ =>
        discard (appendEvents row.id 0 [.runStarted row.workflowType input] now) >>= fun _ =>
          insertWorkflowTask row.namespaceId row.id row.queueName reason now >>= next) last := by
  refine .then (applyRunTimeouts_spec now limits) ?_
  rintro _ _ ⟨change, timeouts, columns, timed, rfl⟩
  refine .then appendEvents_spec.discard ?_
  rintro _ _ ⟨rows, current, rfl, -⟩
  refine .wrote ?_
  have kept : ∀ other ∈ db.runs, other.id ≠ row.id := by
    intro other member same
    exact absurd (same.trans numbered) (Nat.ne_of_lt (fresh other member))
  have runs : (db.runs ++ [row]).map (fun other => if other.id = row.id then change other else other) =
      db.runs ++ [change row] := by
    rw [List.map_append, List.map_singleton, if_pos rfl]
    congr 1
    conv_rhs => rw [← List.map_id db.runs]
    exact List.map_congr_left fun other member => if_neg (kept other member)
  have columns' := RunRow.untimed_eq (columns row)
  have opens : Opens now row input reason db _ :=
    .intro (change row) timeouts (columns row) ⟨timed.own, timed.distinct⟩
  refine rest _ ?_
  convert opens using 1
  unfold Database.opened Database.addTask Database.appended
  rw [current]
  simp only [Database.updateRun, runs, columns'.1, columns'.2.1, columns'.2.2.1, columns'.2.2.2.1]
  rfl

theorem Database.opened_run? {timeouts : List TimerRow} (fresh : ∀ other ∈ db.runs, other.id < db.nextId)
    (numbered : row.id = db.nextId) (other : RunId) : (db.opened row timeouts input reason now).run? other =
      if other = row.id then some row else db.run? other := by
  simp only [Database.opened, Database.run?, List.find?_append]
  split
  · next same =>
      have absent : db.runs.find? (fun other => other.id == row.id) = none := by
        simp only [List.find?_eq_none, beq_iff_eq]
        exact fun old member same' => absurd (same'.trans numbered) (Nat.ne_of_lt (fresh old member))
      rw [same, absent]
      simp
  · next apart =>
      have mismatch : (row.id == other) = false := by simpa using Ne.symm apart
      simp [mismatch]

theorem Database.opened_storedEvents {timeouts : List TimerRow} (other : RunId) :
    (db.opened row timeouts input reason now).storedEvents other =
      db.storedEvents other ++ if other = row.id then [⟨row.id, 1, .runStarted row.workflowType input, now⟩] else [] := by
  simp only [Database.storedEvents, Database.opened, List.filter_append]
  congr 1
  split
  · next same => simp [same]
  · next apart => simpa using Ne.symm apart

theorem Database.Coherent.unborn (coherent : db.Coherent stale) : db.run? db.nextId = none := by
  rw [Database.run?_none]
  exact fun row member => Nat.ne_of_lt (coherent.fresh row member)

/-- A run that is still to be created has no events. -/
theorem Database.Coherent.unborn_storedEvents (coherent : db.Coherent stale) : db.storedEvents db.nextId = [] := by
  refine List.filter_eq_nil_iff.mpr fun stored member => ?_
  have owned := coherent.owned stored member
  intro same
  rw [beq_iff_eq] at same
  rw [same, coherent.unborn] at owned
  cases owned

theorem Database.Coherent.unborn_base (coherent : db.Coherent stale) : db.base db.nextId = createInitialProjection := by
  have absent : (db.snapshots.find? fun row => row.runId == db.nextId) = none := by
    refine List.find?_eq_none.mpr fun snapshot member same => ?_
    have owned := (coherent.snapshots snapshot member).1
    rw [beq_iff_eq.mp same, coherent.unborn] at owned
    cases owned
  rw [Database.base, absent]
  rfl

/-- Opening a run keeps the database coherent. -/
theorem Opens.coherent {db' : Database} (opens : Opens now row input reason db db') (coherent : db.Coherent stale)
    (numbered : row.id = db.nextId) (running : row.status = .running) (unfolded : row.lastSequenceNumber = 0)
    (below : ∀ parentRunId, row.parentRunId = some parentRunId → parentRunId < row.id) : db'.Coherent stale := by
  obtain ⟨row', timeouts, columns, timed⟩ := opens
  have columns' := RunRow.untimed_eq columns
  rw [← columns'.1] at numbered
  have lookup : ∀ other, (db.opened row' timeouts input reason now).run? other =
      if other = row'.id then some row' else db.run? other := Database.opened_run? coherent.fresh numbered
  have found {other : RunId} (old : (db.run? other).isSome) :
      ((db.opened row' timeouts input reason now).run? other).isSome := by
    rw [lookup]
    split
    · rfl
    · exact old
  have first : db.storedEvents row'.id = [] := numbered ▸ coherent.unborn_storedEvents
  constructor
  · change ((db.runs ++ [row']).map RunRow.id).Nodup
    rw [List.map_append, List.nodup_append]
    refine ⟨coherent.distinct, by simp, fun id before id' added => ?_⟩
    obtain ⟨old, member, rfl⟩ := List.mem_map.mp before
    rw [List.map_singleton, List.mem_singleton] at added
    rw [added, numbered]
    exact Nat.ne_of_lt (coherent.fresh old member)
  · intro old member
    change old.id < db.nextId + 2
    rcases List.mem_append.mp member with before | added
    · exact lt_of_lt_of_le (coherent.fresh old before) (Nat.le_add_right _ _)
    · rw [List.mem_singleton.mp added, numbered]
      exact Nat.lt_add_of_pos_right (by decide)
  · intro old member parent named
    rcases List.mem_append.mp member with before | added
    · exact coherent.parents old before parent named
    · rw [List.mem_singleton.mp added] at named ⊢
      rw [columns'.1]
      exact below parent (columns'.2.2.2.2.2.2.1 ▸ named)
  · intro stored member
    rcases List.mem_append.mp member with before | added
    · exact found (coherent.owned stored before)
    · rw [List.mem_singleton.mp added, lookup, if_pos rfl]
      rfl
  · intro snapshot member
    exact ⟨found (coherent.snapshots snapshot member).1, (coherent.snapshots snapshot member).2⟩
  · intro other found' lookup'
    rw [Database.opened_storedEvents]
    change found'.Follows (db.base other) _
    rw [lookup] at lookup'
    split at lookup'
    · next same =>
        subst same
        cases lookup'
        rw [if_pos rfl, first, numbered, coherent.unborn_base]
        have running' := columns'.2.2.2.2.1.trans running
        have unfolded' := columns'.2.2.2.2.2.1.trans unfolded
        refine ⟨rfl, ?_, ?_, fun closed => absurd running' closed⟩
        · rw [unfolded']
          exact ⟨le_rfl, Nat.zero_le _⟩
        · refine fun _ => ⟨rfl, fun event member early => ?_⟩
          rw [List.mem_singleton.mp member]
          rfl
    · next apart =>
        rw [if_neg apart, List.append_nil]
        exact coherent.follows other found' lookup'
  · intro other found' lookup' kept open'
    rw [Database.opened_storedEvents]
    rw [lookup] at lookup'
    split at lookup'
    · next same =>
        subst same
        rw [if_pos rfl, first]
        intro event member
        rw [List.mem_singleton.mp member]
        rfl
    · next apart =>
        rw [if_neg apart, List.append_nil]
        exact coherent.settled other found' lookup' kept open'

end Opening

def TaskRow.stepKey (task : TaskRow) : Option (RunId × String) := task.payload.stepId.map (task.runId, ·)

/-- The events for which the recorder creates rows of other tables. -/
def WorkflowEvent.creates : WorkflowEvent → Bool
  | .childStarted .. | .runContinuedAsNew _ | .stepScheduled .. | .timerStarted .. => true
  | _ => false

/-- What the recorder creates for an event of a decision. -/
inductive Creates (options : RecorderOptions) (runId : RunId) (db : Database) : WorkflowEvent → Database → Prop
  | timer {timerId : String} {fireAt : Instant} {durationMs : Option JsNumber}
      (absent : ∀ timer ∈ db.timers, timer.key ≠ (runId, timerId)) :
      Creates options runId db (.timerStarted timerId fireAt durationMs)
        { db with timers := db.timers ++ [⟨runId, timerId, fireAt, .pending⟩] }
  | timerKept {timerId : String} {fireAt : Instant} {durationMs : Option JsNumber}
      (present : ∃ timer ∈ db.timers, timer.key = (runId, timerId)) :
      Creates options runId db (.timerStarted timerId fireAt durationMs) db
  | stepTask {stepId stepType queueName : String} {input : JsValue} {row : RunRow}
      (queued : options.queueName = some queueName) (found : db.run? runId = some row)
      (absent : ∀ task ∈ db.tasks, task.stepKey ≠ some (runId, stepId)) :
      Creates options runId db (.stepScheduled stepId stepType input) (db.addTask
        (newTask row.namespaceId runId queueName (.stepTask stepId stepType input 0) options.now.ms))
  | stepTaskKept {stepId stepType queueName : String} {input : JsValue}
      (queued : options.queueName = some queueName)
      (present : ∃ task ∈ db.tasks, task.stepKey = some (runId, stepId)) :
      Creates options runId db (.stepScheduled stepId stepType input) db
  | stepUnqueued {stepId stepType : String} {input : JsValue} (unqueued : options.queueName = none) :
      Creates options runId db (.stepScheduled stepId stepType input) db
  | child {childId workflowType queueName : String} {input : JsValue} {policy : ParentClosePolicy}
      {runTimeoutMs executionTimeoutMs : Option JsNumber} {parent : RunRow} {db' : Database}
      (queued : options.queueName = some queueName) (found : db.run? runId = some parent)
      (absent : db.childOf? runId childId = none)
      (opens : Opens options.now (childRunRow parent queueName childId workflowType input policy options.now db.nextId) input
        (.childStarted runId childId) db db') :
      Creates options runId db (.childStarted childId workflowType input policy runTimeoutMs executionTimeoutMs) db'
  | childKept {childId workflowType queueName : String} {input : JsValue} {policy : ParentClosePolicy}
      {runTimeoutMs executionTimeoutMs : Option JsNumber} {child : RunRow}
      (queued : options.queueName = some queueName) (present : db.childOf? runId childId = some child) :
      Creates options runId db (.childStarted childId workflowType input policy runTimeoutMs executionTimeoutMs) db
  | successor {input : JsValue} {row : RunRow} {db' : Database} (found : db.run? runId = some row)
      (opens : Opens options.now (continuedRunRow row input options.now db.nextId) input (.continueAsNew runId) db db') :
      Creates options runId db (.runContinuedAsNew input) db'
  | nothing {event : WorkflowEvent} (plain : WorkflowEvent.creates event = false) : Creates options runId db event db

section Creating

variable {options : RecorderOptions} {runId : RunId} {db db' : Database} {event : WorkflowEvent}
  {stale : Option RunId}

theorem Creates.coherent (creates : Creates options runId db event db') (coherent : db.Coherent stale) : db'.Coherent stale := by
  cases creates with
  | timer absent => exact coherent.congr rfl rfl rfl le_rfl
  | stepTask queued found absent => exact coherent.addTask _
  | child queued found absent opens =>
    refine opens.coherent coherent rfl rfl rfl fun parentRunId named => ?_
    cases named
    exact coherent.fresh _ (Database.run?_mem found)
  | successor found opens =>
    refine opens.coherent coherent rfl rfl rfl fun parentRunId named => ?_
    have member := Database.run?_mem found
    exact lt_trans (coherent.parents _ member parentRunId named) (coherent.fresh _ member)
  | timerKept present => exact coherent
  | stepTaskKept queued present => exact coherent
  | stepUnqueued unqueued => exact coherent
  | childKept queued present => exact coherent
  | nothing plain => exact coherent

/-- The run that is opened takes the next id. -/
theorem Opens.fresh {now : Instant} {row : RunRow} {input : JsValue} {reason : WakeReason} (opens : Opens now row input reason db db')
    (numbered : row.id = db.nextId) (fresh : ∀ other ∈ db.runs, other.id < db.nextId) : ∀ other ∈ db'.runs, other.id < db'.nextId := by
  obtain ⟨row', timeouts, columns, timed⟩ := opens
  intro other member
  rcases List.mem_append.mp member with old | added
  · exact lt_trans (fresh other old) (by simp [Database.opened])
  · have same := (RunRow.untimed_eq columns).1.trans numbered
    rw [List.mem_singleton.mp added, same]
    simp [Database.opened]

theorem Creates.fresh (creates : Creates options runId db event db') (fresh : ∀ other ∈ db.runs, other.id < db.nextId) :
    ∀ other ∈ db'.runs, other.id < db'.nextId := by
  cases creates with
  | stepTask queued found absent => exact fun other member => Nat.lt_succ_of_lt (fresh other member)
  | child queued found absent opens => exact opens.fresh rfl fresh
  | successor found opens => exact opens.fresh rfl fresh
  | timer absent => exact fresh
  | timerKept present => exact fresh
  | stepTaskKept queued present => exact fresh
  | stepUnqueued unqueued => exact fresh
  | childKept queued present => exact fresh
  | nothing plain => exact fresh

theorem enqueueStepTask_spec {row : RunRow} {queueName : String} (stepId stepType : String) (input : JsValue)
    (found : db.run? runId = some row) (queued : options.queueName = some queueName) :
    Ensures (· = db) (enqueueStepTask row.namespaceId runId queueName stepId stepType input options.now)
      fun _ db' => Creates options runId db (.stepScheduled stepId stepType input) db' := by
  have keyed (task : TaskRow) : task.stepKey = some (runId, stepId) ↔
      task.runId = runId ∧ task.payload.stepId = some stepId := by
    simp [TaskRow.stepKey, and_comm]
  refine .statement ?_
  rintro store answer store' rfl inserted
  split at inserted
  · next present =>
      cases inserted
      refine .stepTaskKept queued ?_
      simpa [keyed] using present
  · next absent =>
      cases inserted
      refine .stepTask queued found fun task member same => absent ?_
      simpa using ⟨task, member, (keyed task).mp same⟩

theorem createChildRun_spec {queueName childId workflowType : String} {input : JsValue}
    {policy : ParentClosePolicy} {runTimeoutMs executionTimeoutMs : Option JsNumber}
    (fresh : ∀ other ∈ db.runs, other.id < db.nextId) (queued : options.queueName = some queueName) :
    Ensures (· = db) (createChildRun runId queueName childId workflowType input policy runTimeoutMs
      executionTimeoutMs options.now) fun _ db' => Creates options runId db
        (.childStarted childId workflowType input policy runTimeoutMs executionTimeoutMs) db' := by
  unfold createChildRun
  have inserted : Ensures (· = db) (insertChildRun runId queueName childId workflowType input policy options.now)
      fun created db' => (created = none ∧ db' = db ∧ ∃ child, db.childOf? runId childId = some child) ∨
        ∃ parent, db.run? runId = some parent ∧ db.childOf? runId childId = none ∧
          created = some (childRunRow parent queueName childId workflowType input policy options.now db.nextId) ∧
          db' = db.addRun (childRunRow parent queueName childId workflowType input policy options.now) := by
    refine .statement ?_
    rintro store answer store' rfl inserted
    split at inserted
    · cases inserted
    · next child _ present =>
        cases inserted
        exact .inl ⟨rfl, rfl, child, present⟩
    · next parent found absent =>
        cases inserted
        exact .inr ⟨parent, found, absent, rfl, rfl⟩
  refine .then inserted ?_
  rintro _ _ (⟨rfl, rfl, child, present⟩ | ⟨parent, found, absent, rfl, rfl⟩)
  · refine .keeps .looked fun _ => .pure ?_
    rintro store same
    rw [same]
    exact .childKept queued present
  · refine opens_spec _ fresh rfl fun db' opens => .pure ?_
    rintro _ rfl
    exact .child queued found absent opens

theorem createContinuedRun_spec (input : JsValue) (fresh : ∀ other ∈ db.runs, other.id < db.nextId) :
    Ensures (· = db) (createContinuedRun runId input options.now) fun _ db' => Creates options runId db (.runContinuedAsNew input) db' := by
  unfold createContinuedRun
  refine .read ?_
  cases found : db.run? runId with
  | none => exact .raise
  | some row =>
    have inserted : Ensures (E := EngineError) (· = db)
        (statement fun db => some (db.nextId, db.addRun (continuedRunRow row input options.now)))
        fun next db' => next = db.nextId ∧ db' = db.addRun (continuedRunRow row input options.now) := by
      refine .statement ?_
      rintro store answer store' rfl inserted
      cases inserted
      exact ⟨rfl, rfl⟩
    refine .then inserted ?_
    rintro _ _ ⟨rfl, rfl⟩
    have units : (fun _ : PUnit => insertWorkflowTask row.namespaceId db.nextId row.queueName
        (.continueAsNew runId) options.now) = fun _ => insertWorkflowTask row.namespaceId db.nextId
          row.queueName (.continueAsNew runId) options.now >>= pure := by
      funext _
      exact (bind_pure _).symm
    rw [units]
    refine opens_spec _ fresh rfl fun db' opens => .pure ?_
    rintro _ rfl
    exact .successor found opens

/-- What `createFor` does. -/
theorem createFor_spec (fresh : ∀ other ∈ db.runs, other.id < db.nextId) (event : WorkflowEvent) :
    Ensures (· = db) (createFor options runId event) fun _ db' => Creates options runId db event db' := by
  cases event with
  | childStarted childId workflowType input policy runTimeoutMs executionTimeoutMs =>
    refine .keeps .looked fun _ => ?_
    cases queued : options.queueName with
    | none => exact .raise
    | some queueName =>
      exact (createChildRun_spec fresh queued).discard.mono (fun _ => id) fun _ _ ⟨_, creates⟩ => creates
  | runContinuedAsNew input => exact createContinuedRun_spec _ fresh
  | stepScheduled stepId stepType input =>
    unfold createFor
    cases queued : options.queueName with
    | none => exact .pure fun _ same => same ▸ .stepUnqueued queued
    | some queueName =>
      refine .read ?_
      cases found : db.run? runId with
      | none => exact .raise
      | some row =>
        exact (enqueueStepTask_spec _ _ _ found queued).discard.mono (fun _ => id) fun _ _ ⟨_, creates⟩ => creates
  | timerStarted timerId fireAt durationMs =>
    refine (insertTimer_spec _ _).discard.mono (fun _ => id) ?_
    rintro _ db' ⟨_, ⟨rfl, present⟩ | ⟨rfl, absent⟩⟩
    · exact .timerKept present
    · exact .timer absent
  | _ => exact .pure fun _ same => same ▸ .nothing rfl

end Creating

end DurableExecution.Engine

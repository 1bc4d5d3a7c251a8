import DurableExecution.Engine.Footprint

/-
This file says how the rows of timers, step tasks and child runs stand to the events that
asked for them, and that recording one more event keeps it so.
-/

namespace DurableExecution.Engine

open Workflow (JsValue WorkflowEvent ParentClosePolicy Instant JsNumber)
open Transaction

/-- An event of a recorded decision, with the recorder that recorded it. -/
structure RecordedEvent where
  options : RecorderOptions
  runId : RunId
  event : WorkflowEvent

/-- What a decision names: steps, timers and children have ids of their own. -/
inductive CreatedName where
  | step (stepId : String)
  | timer (timerId : String)
  | child (childId : String)
  deriving DecidableEq

def createdName : WorkflowEvent → Option CreatedName
  | .stepScheduled stepId .. => some (.step stepId)
  | .timerStarted timerId .. => some (.timer timerId)
  | .childStarted childId .. => some (.child childId)
  | _ => none

def RecordedEvent.name (recorded : RecordedEvent) : Option (RunId × CreatedName) :=
  (createdName recorded.event).map (recorded.runId, ·)

/-- No id is used twice in a run. -/
def DistinctNames (recorded : List RecordedEvent) : Prop := (recorded.filterMap RecordedEvent.name).Nodup

def LastingTask.stepKey (task : LastingTask) : Option (RunId × String) := task.payload.stepId.map (task.runId, ·)

/-- The child whose first workflow task this is. -/
def LastingTask.childKey (task : LastingTask) : Option (RunId × String) :=
  match task.payload with
  | .workflowTask (.childStarted parentRunId childId) => some (parentRunId, childId)
  | _ => none

/-- The parent of a run and its name there. -/
def RunRow.childKey (row : RunRow) : Option (RunId × String) :=
  match row.parentRunId, row.parentChildId with
  | some parentRunId, some childId => some (parentRunId, childId)
  | _, _ => none

/-- Timers, step tasks and child runs are those that recorded events ask for, once each. -/
structure Asked (recorded : List RecordedEvent) (foot : Footprint) (log : RunId → List WorkflowEvent) : Prop where
  timerKeys : (foot.timers.map TimerRow.key).Nodup
  timers : ∀ timer ∈ foot.timers, isTimeoutTimerId timer.timerId = true ∨ ∃ options durationMs,
    ⟨options, timer.runId, .timerStarted timer.timerId timer.fireAt durationMs⟩ ∈ recorded
  stepKeys : (foot.tasks.filterMap LastingTask.stepKey).Nodup
  steps : ∀ task ∈ foot.tasks, ∀ stepId, task.payload.stepId = some stepId → ∃ options stepType input,
    ⟨options, task.runId, .stepScheduled stepId stepType input⟩ ∈ recorded ∧
      options.queueName = some task.queueName ∧ task.payload = .stepTask stepId stepType input 0
  childKeys : (foot.runs.filterMap RunRow.childKey).Nodup
  children : ∀ row ∈ foot.runs, ∀ parentRunId childId, row.childKey = some (parentRunId, childId) →
    ∃ options input policy runTimeoutMs executionTimeoutMs,
      ⟨options, parentRunId, .childStarted childId row.workflowType input policy runTimeoutMs executionTimeoutMs⟩ ∈
        recorded ∧ (log row.id).head? = some (.runStarted row.workflowType input) ∧
      ∃ task ∈ foot.tasks, task.childKey = some (parentRunId, childId) ∧ task.runId = row.id
  firstTaskKeys : (foot.tasks.filterMap LastingTask.childKey).Nodup
  firstTasks : ∀ task ∈ foot.tasks, ∀ parentRunId childId, task.childKey = some (parentRunId, childId) →
    ∃ row ∈ foot.runs, row.childKey = some (parentRunId, childId)

/-- What recorded events ask for is there. -/
structure Made (recorded : List RecordedEvent) (foot : Footprint) : Prop where
  timers : ∀ options runId timerId fireAt durationMs,
    ⟨options, runId, .timerStarted timerId fireAt durationMs⟩ ∈ recorded →
      ∃ timer ∈ foot.timers, timer.key = (runId, timerId)
  steps : ∀ options runId stepId stepType input,
    ⟨options, runId, .stepScheduled stepId stepType input⟩ ∈ recorded → options.queueName.isSome →
      ∃ task ∈ foot.tasks, task.stepKey = some (runId, stepId)
  children : ∀ options runId childId workflowType input policy runTimeoutMs executionTimeoutMs,
    ⟨options, runId, .childStarted childId workflowType input policy runTimeoutMs executionTimeoutMs⟩ ∈ recorded →
      ∃ row ∈ foot.runs, row.childKey = some (runId, childId)

section Facts

variable {recorded : List RecordedEvent} {foot : Footprint} {log log' : RunId → List WorkflowEvent}

/-- The names of recorded events tell them apart. -/
theorem DistinctNames.same {one two : RecordedEvent} {name : RunId × CreatedName} (distinct : DistinctNames recorded)
    (first : one ∈ recorded) (second : two ∈ recorded) (named : one.name = some name) (named' : two.name = some name) : one = two := by
  unfold DistinctNames at distinct
  induction recorded with
  | nil => cases first
  | cons head rest ih =>
    have later {other : RecordedEvent} (member : other ∈ rest) (namedOther : other.name = some name) :
        name ∈ rest.filterMap RecordedEvent.name := List.mem_filterMap.mpr ⟨other, member, namedOther⟩
    have apart {other : RecordedEvent} (member : other ∈ rest) (namedOther : other.name = some name) :
        head.name ≠ some name := by
      intro namedHead
      rw [List.filterMap_cons_some namedHead, List.nodup_cons] at distinct
      exact distinct.1 (later member namedOther)
    rcases List.mem_cons.mp first with atHead | inRest
    · rcases List.mem_cons.mp second with atHead' | inRest'
      · exact atHead.trans atHead'.symm
      · exact absurd (atHead ▸ named) (apart inRest' named')
    · rcases List.mem_cons.mp second with atHead' | inRest'
      · exact absurd (atHead' ▸ named') (apart inRest named)
      · refine ih ?_ inRest inRest'
        exact distinct.sublist (List.Sublist.filterMap _ (List.sublist_cons_self head rest))

/-- More may be recorded, and logs may grow. -/
theorem Asked.mono {recorded' : List RecordedEvent} (asked : Asked recorded foot log)
    (more : ∀ entry ∈ recorded, entry ∈ recorded') (grows : ∀ runId, ∃ more, log' runId = log runId ++ more) :
    Asked recorded' foot log' := by
  refine { asked with
    timers := fun timer member => ?_
    steps := fun task member stepId named => ?_
    children := fun row member parentRunId childId key => ?_ }
  · rcases asked.timers timer member with reserved | ⟨options, durationMs, entry⟩
    · exact .inl reserved
    · exact .inr ⟨options, durationMs, more _ entry⟩
  · obtain ⟨options, stepType, input, entry, rest⟩ := asked.steps task member stepId named
    exact ⟨options, stepType, input, more _ entry, rest⟩
  · obtain ⟨options, input, policy, run, execution, entry, first, task⟩ :=
      asked.children row member parentRunId childId key
    refine ⟨options, input, policy, run, execution, more _ entry, ?_, task⟩
    obtain ⟨events, extended⟩ := grows row.id
    rw [extended, List.head?_append, first]
    rfl

/-- More rows may be made. -/
theorem Made.mono {foot' : Footprint} (made : Made recorded foot)
    (timers : ∀ timer ∈ foot.timers, timer ∈ foot'.timers) (tasks : ∀ task ∈ foot.tasks, task ∈ foot'.tasks)
    (runs : ∀ row ∈ foot.runs, row ∈ foot'.runs) : Made recorded foot' := by
  constructor
  · intro options runId timerId fireAt durationMs entry
    obtain ⟨timer, member, key⟩ := made.timers options runId timerId fireAt durationMs entry
    exact ⟨timer, timers timer member, key⟩
  · intro options runId stepId stepType input entry queued
    obtain ⟨task, member, key⟩ := made.steps options runId stepId stepType input entry queued
    exact ⟨task, tasks task member, key⟩
  · intro options runId childId workflowType input policy run execution entry
    obtain ⟨row, member, key⟩ := made.children options runId childId workflowType input policy run execution entry
    exact ⟨row, runs row member, key⟩

/-- One more event is recorded for which everything is there. -/
theorem Made.record {entry : RecordedEvent} (made : Made recorded foot)
    (timer : ∀ timerId fireAt durationMs, entry.event = .timerStarted timerId fireAt durationMs →
      ∃ timer ∈ foot.timers, timer.key = (entry.runId, timerId))
    (step : ∀ stepId stepType input, entry.event = .stepScheduled stepId stepType input →
      entry.options.queueName.isSome → ∃ task ∈ foot.tasks, task.stepKey = some (entry.runId, stepId))
    (child : ∀ childId workflowType input policy runTimeoutMs executionTimeoutMs,
      entry.event = .childStarted childId workflowType input policy runTimeoutMs executionTimeoutMs →
        ∃ row ∈ foot.runs, row.childKey = some (entry.runId, childId)) : Made (recorded ++ [entry]) foot := by
  constructor
  · intro options runId timerId fireAt durationMs member
    rcases List.mem_append.mp member with before | added
    · exact made.timers options runId timerId fireAt durationMs before
    · cases List.mem_singleton.mp added
      exact timer timerId fireAt durationMs rfl
  · intro options runId stepId stepType input member queued
    rcases List.mem_append.mp member with before | added
    · exact made.steps options runId stepId stepType input before queued
    · cases List.mem_singleton.mp added
      exact step stepId stepType input rfl queued
  · intro options runId childId workflowType input policy run execution member
    rcases List.mem_append.mp member with before | added
    · exact made.children options runId childId workflowType input policy run execution before
    · cases List.mem_singleton.mp added
      exact child childId workflowType input policy run execution rfl

end Facts

section Creating

variable {recorded : List RecordedEvent} {db db' : Database} {now : Instant} {row : RunRow} {input : JsValue}
  {reason : WakeReason} {stale : Option RunId}

/-- What opening a run adds to the footprint and to the logs. -/
structure Adds (row : RunRow) (timeouts : List TimerRow) (first : Option LastingTask) (event : WorkflowEvent)
    (db db' : Database) : Prop where
  timed : Timeouts db row.id timeouts
  foot : db'.footprint = { db.footprint with
    runs := db.footprint.runs ++ [row]
    timers := db.footprint.timers ++ timeouts
    tasks := db.footprint.tasks ++ first.toList }
  logs : ∀ runId, db'.log runId = db.log runId ++ if runId = row.id then [event] else []

theorem Opens.adds (opens : Opens now row input reason db db') : ∃ row' timeouts, row'.untimed = row.identity.untimed ∧
    Adds row' timeouts (newTask 0 row.id row.queueName (.workflowTask reason) 0 0).lasting (.runStarted row.workflowType input) db db' := by
  obtain ⟨row', timeouts, columns, timed⟩ := opens
  have same := RunRow.untimed_eq columns
  refine ⟨row'.identity, timeouts, (congrArg RunRow.identity columns :), ?_, ?_, ?_⟩
  · change Timeouts db row'.id timeouts
    rwa [same.1]
  · simp only [Database.footprint, Database.opened, List.map_append, List.map_singleton, List.filterMap_append,
      List.filterMap_cons, List.filterMap_nil]
    congr 2
    unfold TaskRow.lasting newTask
    rw [same.1, same.2.2.1]
    cases TaskPayload.lasts (.workflowTask reason) <;> rfl
  · intro runId
    have stored : (db.opened row' timeouts input reason now).storedEvents runId = _ :=
      Database.opened_storedEvents runId
    rw [Database.log, stored, List.map_append, ← same.2.2.2.1]
    change _ ++ (if runId = row'.id then _ else _ : List EventRow).map _ = _ ++ if runId = row'.id then _ else _
    split <;> rfl

/-- A run that is nobody's child is opened. -/
theorem Asked.opened {timeouts : List TimerRow} {event : WorkflowEvent} (asked : Asked recorded db.footprint db.log)
    (adds : Adds row timeouts none event db db') (orphan : row.childKey = none) : Asked recorded db'.footprint db'.log := by
  have kept : Asked recorded db.footprint db'.log := asked.mono (fun _ => id) fun runId => ⟨_, adds.logs runId⟩
  rw [adds.foot]
  refine { kept with
    timerKeys := adds.timed.distinct kept.timerKeys
    timers := fun timer member => ?_
    stepKeys := by simpa using kept.stepKeys
    steps := by simpa using kept.steps
    childKeys := by simpa [List.filterMap_append, orphan] using kept.childKeys
    children := fun row' member parentRunId childId key => ?_
    firstTaskKeys := by simpa using kept.firstTaskKeys
    firstTasks := fun task member parentRunId childId key => ?_ }
  · rcases List.mem_append.mp member with before | added
    · exact kept.timers timer before
    · exact .inl (adds.timed.own timer added).2
  · rcases List.mem_append.mp member with before | added
    · simpa using kept.children row' before parentRunId childId key
    · rw [List.mem_singleton.mp added, orphan] at key
      cases key
  · have before : task ∈ db.footprint.tasks := by simpa using member
    obtain ⟨row', listed, key'⟩ := kept.firstTasks task before parentRunId childId key
    exact ⟨row', List.mem_append_left _ listed, key'⟩

/-- A child is opened that a recorded event asks for. -/
theorem Asked.child {timeouts : List TimerRow} {parentRunId : RunId} {childId : String} {task : LastingTask}
    {options : RecorderOptions} {policy : ParentClosePolicy} {run execution : Option JsNumber} (asked : Asked recorded db.footprint db.log)
    (adds : Adds row timeouts (some task) (.runStarted row.workflowType input) db db')
    (unborn : db.log row.id = []) (key : row.childKey = some (parentRunId, childId))
    (unnamed : ∀ other ∈ db.footprint.runs, other.childKey ≠ some (parentRunId, childId))
    (first : task.childKey = some (parentRunId, childId) ∧ task.runId = row.id)
    (entry : ⟨options, parentRunId, .childStarted childId row.workflowType input policy run execution⟩ ∈ recorded) :
    Asked recorded db'.footprint db'.log := by
  have kept : Asked recorded db.footprint db'.log := asked.mono (fun _ => id) fun runId => ⟨_, adds.logs runId⟩
  have payload : task.payload = .workflowTask (.childStarted parentRunId childId) := by
    have named := first.1
    unfold LastingTask.childKey at named
    split at named
    · next parent child same =>
        cases named
        exact same
    · cases named
  have stepless : task.stepKey = none := by rw [LastingTask.stepKey, payload]; rfl
  have fresh : ∀ other ∈ db.footprint.tasks, other.childKey ≠ some (parentRunId, childId) := by
    intro other member same
    obtain ⟨row', listed, key'⟩ := kept.firstTasks other member parentRunId childId same
    exact unnamed row' listed key'
  rw [adds.foot]
  refine { kept with
    timerKeys := adds.timed.distinct kept.timerKeys
    timers := fun timer member => ?_
    stepKeys := by simpa [List.filterMap_append, stepless] using kept.stepKeys
    steps := fun other member stepId named => ?_
    childKeys := ?_
    children := fun row' member parent child key' => ?_
    firstTaskKeys := ?_
    firstTasks := fun other member parent child key' => ?_ }
  · rcases List.mem_append.mp member with before | added
    · exact kept.timers timer before
    · exact .inl (adds.timed.own timer added).2
  · rcases List.mem_append.mp member with before | added
    · exact kept.steps other before stepId named
    · have same : other = task := by simpa using added
      rw [same, payload] at named
      cases named
  · rw [List.filterMap_append, List.nodup_append]
    refine ⟨kept.childKeys, by simp [key], fun one before two added => ?_⟩
    obtain ⟨other, listed, named⟩ := List.mem_filterMap.mp before
    rw [List.filterMap_cons_some key, List.filterMap_nil, List.mem_singleton] at added
    rintro rfl
    exact unnamed other listed (added ▸ named)
  · rcases List.mem_append.mp member with before | added
    · obtain ⟨options', input', policy', run', execution', entry', first', task', listed, rest⟩ :=
        kept.children row' before parent child key'
      exact ⟨options', input', policy', run', execution', entry', first', task', List.mem_append_left _ listed, rest⟩
    · rw [List.mem_singleton.mp added] at key' ⊢
      cases key.symm.trans key'
      refine ⟨options, input, policy, run, execution, entry, ?_, task, List.mem_append_right _ (by simp), first⟩
      rw [adds.logs, unborn, if_pos rfl]
      rfl
  · rw [List.filterMap_append, List.nodup_append]
    refine ⟨kept.firstTaskKeys, by simp [first.1], fun one before two added => ?_⟩
    obtain ⟨other, listed, named⟩ := List.mem_filterMap.mp before
    rw [Option.toList_some, List.filterMap_cons_some first.1, List.filterMap_nil, List.mem_singleton] at added
    rintro rfl
    exact fresh other listed (added ▸ named)
  · rcases List.mem_append.mp member with before | added
    · obtain ⟨row', listed, named⟩ := kept.firstTasks other before parent child key'
      exact ⟨row', List.mem_append_left _ listed, named⟩
    · have same : other = task := by simpa using added
      rw [same] at key'
      cases first.1.symm.trans key'
      exact ⟨row, List.mem_append_right _ List.mem_cons_self, key⟩

theorem TaskRow.lasting_stepKey {task : TaskRow} {lasting : LastingTask} (kept : task.lasting = some lasting) :
    lasting.stepKey = task.stepKey := by
  unfold TaskRow.lasting at kept
  split at kept
  · cases kept
    rfl
  · cases kept

theorem TaskRow.stepKey_lasting {task : TaskRow} {key : RunId × String} (keyed : task.stepKey = some key) :
    ∃ lasting, task.lasting = some lasting ∧ lasting.stepKey = some key := by
  cases payload : task.payload with
  | workflowTask reason =>
    rw [TaskRow.stepKey, payload] at keyed
    cases keyed
  | stepTask stepId stepType input attemptOffset =>
    have kept : task.lasting = some ⟨task.runId, task.queueName, task.payload⟩ := by
      rw [TaskRow.lasting, payload]
      rfl
    exact ⟨_, kept, (TaskRow.lasting_stepKey kept).trans keyed⟩

theorem Database.childOf?_none {parentRunId : RunId} {childId : String} (absent : db.childOf? parentRunId childId = none) :
    ∀ row ∈ db.footprint.runs, row.childKey ≠ some (parentRunId, childId) := by
  intro row member key
  obtain ⟨stored, listed, rfl⟩ := List.mem_map.mp member
  have columns : stored.parentRunId = some parentRunId ∧ stored.parentChildId = some childId := by
    change (match stored.parentRunId, stored.parentChildId with
      | some parent, some child => some (parent, child)
      | _, _ => none) = _ at key
    split at key
    · next parent child one two =>
        cases key
        exact ⟨one, two⟩
    · cases key
  have found := List.find?_eq_none.mp absent stored listed
  simp [columns] at found

theorem Database.childOf?_some {parentRunId : RunId} {childId : String} {child : RunRow}
    (present : db.childOf? parentRunId childId = some child) : ∃ row ∈ db.footprint.runs, row.childKey = some (parentRunId, childId) := by
  have matching : child.parentRunId = some parentRunId ∧ child.parentChildId = some childId := by
    simpa using List.find?_some present
  refine ⟨child.identity, List.mem_map_of_mem (List.mem_of_find?_eq_some present), ?_⟩
  change (match child.parentRunId, child.parentChildId with
    | some parent, some child => some (parent, child)
    | _, _ => none) = _
  rw [matching.1, matching.2]

/-- Recording one event of a decision keeps the rows and the events matched. -/
theorem Creates.artifacts {options : RecorderOptions} {runId : RunId} {event : WorkflowEvent}
    (creates : Creates options runId db event db') (coherent : db.Coherent stale)
    (asked : Asked recorded db.footprint db.log) (made : Made recorded db.footprint) :
    Asked (recorded ++ [⟨options, runId, event⟩]) db'.footprint db'.log ∧ Made (recorded ++ [⟨options, runId, event⟩]) db'.footprint := by
  have kept : Asked (recorded ++ [⟨options, runId, event⟩]) db.footprint db.log :=
    asked.mono (fun entry member => List.mem_append_left _ member) fun _ => ⟨[], (List.append_nil _).symm⟩
  have entry : (⟨options, runId, event⟩ : RecordedEvent) ∈ recorded ++ [⟨options, runId, event⟩] :=
    List.mem_append_right _ List.mem_cons_self
  cases creates with
  | timer absent =>
    refine ⟨{ kept with timerKeys := ?_, timers := fun timer member => ?_ },
      Made.record (made.mono ?_ ?_ ?_) ?_ (by rintro _ _ _ ⟨⟩) (by rintro _ _ _ _ _ _ ⟨⟩)⟩
    · change ((db.timers ++ _).map TimerRow.key).Nodup
      rw [List.map_append, List.nodup_append]
      refine ⟨kept.timerKeys, by simp, fun key before key' added => ?_⟩
      obtain ⟨timer, listed, rfl⟩ := List.mem_map.mp before
      rw [List.map_singleton, List.mem_singleton] at added
      rw [added]
      exact absent timer listed
    · rcases List.mem_append.mp member with before | added
      · exact kept.timers timer before
      · rw [List.mem_singleton.mp added]
        exact .inr ⟨options, _, entry⟩
    · exact fun timer member => List.mem_append_left _ member
    · exact fun _ => id
    · exact fun _ => id
    · intro timerId fireAt durationMs same
      cases same
      exact ⟨_, List.mem_append_right _ List.mem_cons_self, rfl⟩
  | timerKept present =>
    refine ⟨kept, made.record ?_ (by rintro _ _ _ ⟨⟩) (by rintro _ _ _ _ _ _ ⟨⟩)⟩
    intro timerId fireAt durationMs same
    cases same
    exact present
  | @stepTask stepId stepType queueName input row queued found absent =>
    have tasks : (db.addTask (newTask row.namespaceId runId queueName
        (.stepTask stepId stepType input 0) options.now.ms)).footprint =
          { db.footprint with tasks := db.footprint.tasks ++
            [⟨runId, queueName, .stepTask stepId stepType input 0⟩] } := by
      simp only [Database.footprint, Database.addTask, List.filterMap_append]
      rfl
    rw [tasks]
    refine ⟨{ kept with
      stepKeys := ?_
      steps := fun task member stepId' named => ?_
      children := fun row member parent child key => ?_
      firstTaskKeys := ?_
      firstTasks := fun task member parent child key => ?_ },
      Made.record (made.mono ?_ ?_ ?_) (by rintro _ _ _ ⟨⟩) ?_ (by rintro _ _ _ _ _ _ ⟨⟩)⟩
    · rw [List.filterMap_append, List.nodup_append]
      refine ⟨kept.stepKeys, List.nodup_singleton (runId, stepId), fun key before key' added => ?_⟩
      obtain ⟨lasting, listed, keyed⟩ := List.mem_filterMap.mp before
      obtain ⟨task, member, kept'⟩ := List.mem_filterMap.mp listed
      have same : key' = (runId, stepId) := List.mem_singleton.mp added
      rintro rfl
      exact absent task member (by rw [← TaskRow.lasting_stepKey kept', keyed, same])
    · rcases List.mem_append.mp member with before | added
      · exact kept.steps task before stepId' named
      · rw [List.mem_singleton.mp added] at named ⊢
        cases named
        exact ⟨options, stepType, input, entry, queued, rfl⟩
    · obtain ⟨options', input', policy, run, execution, entry', first, task, listed, rest⟩ :=
        kept.children row member parent child key
      exact ⟨options', input', policy, run, execution, entry', first, task, List.mem_append_left _ listed, rest⟩
    · rw [List.filterMap_append]
      exact (List.append_nil _).symm ▸ kept.firstTaskKeys
    · rcases List.mem_append.mp member with before | added
      · exact kept.firstTasks task before parent child key
      · rw [List.mem_singleton.mp added] at key
        cases key
    · exact fun _ => id
    · exact fun task member => List.mem_append_left _ member
    · exact fun _ => id
    · intro stepId' stepType' input' same _
      cases same
      exact ⟨_, List.mem_append_right _ List.mem_cons_self, rfl⟩
  | stepTaskKept queued present =>
    refine ⟨kept, made.record (by rintro _ _ _ ⟨⟩) ?_ (by rintro _ _ _ _ _ _ ⟨⟩)⟩
    intro stepId stepType input same _
    cases same
    obtain ⟨task, member, keyed⟩ := present
    obtain ⟨lasting, kept', keyed'⟩ := TaskRow.stepKey_lasting keyed
    exact ⟨lasting, List.mem_filterMap.mpr ⟨task, member, kept'⟩, keyed'⟩
  | stepUnqueued unqueued =>
    refine ⟨kept, made.record (by rintro _ _ _ ⟨⟩) ?_ (by rintro _ _ _ _ _ _ ⟨⟩)⟩
    intro stepId stepType input same queued
    rw [unqueued] at queued
    cases queued
  | @child childId workflowType queueName input policy run execution parent db' queued found absent opens =>
    obtain ⟨row', timeouts, columns, adds⟩ := opens.adds
    have same := RunRow.untimed_eq columns
    have numbered : row'.id = db.nextId := same.1
    have key : row'.childKey = some (runId, childId) := by
      rw [RunRow.childKey, same.2.2.2.2.2.2.1, same.2.2.2.2.2.2.2.1]
      exact congrArg (fun id => some (id, childId)) (Database.run?_id found)
    have workflow : row'.workflowType = workflowType := same.2.2.2.1
    have unborn : db.log row'.id = [] := by
      rw [Database.log, numbered, coherent.unborn_storedEvents]
      rfl
    have adds' : Adds row' timeouts (some ⟨db.nextId, queueName, .workflowTask (.childStarted runId childId)⟩)
        (.runStarted row'.workflowType input) db db' := by
      rw [workflow]
      exact adds
    have entry' : ⟨options, runId, .childStarted childId row'.workflowType input policy run execution⟩ ∈
        recorded ++ [⟨options, runId, .childStarted childId workflowType input policy run execution⟩] := by
      rw [workflow]
      exact entry
    refine ⟨Asked.child kept adds' unborn key (Database.childOf?_none absent) ⟨rfl, numbered.symm⟩ entry', ?_⟩
    rw [adds.foot]
    refine Made.record (made.mono ?_ ?_ ?_) (by rintro _ _ _ ⟨⟩) (by rintro _ _ _ ⟨⟩) ?_
    · exact fun timer member => List.mem_append_left _ member
    · exact fun task member => List.mem_append_left _ member
    · exact fun row member => List.mem_append_left _ member
    · intro childId' workflowType' input' policy' run' execution' same'
      cases same'
      exact ⟨row', List.mem_append_right _ List.mem_cons_self, key⟩
  | childKept queued present =>
    refine ⟨kept, made.record (by rintro _ _ _ ⟨⟩) (by rintro _ _ _ ⟨⟩) ?_⟩
    intro childId workflowType input policy run execution same
    cases same
    exact Database.childOf?_some present
  | successor found opens =>
    obtain ⟨row', timeouts, columns, adds⟩ := opens.adds
    have same := RunRow.untimed_eq columns
    have orphan : row'.childKey = none := by
      rw [RunRow.childKey, same.2.2.2.2.2.2.2.1]
      cases row'.parentRunId <;> rfl
    refine ⟨Asked.opened kept adds orphan, ?_⟩
    rw [adds.foot]
    refine Made.record (made.mono ?_ ?_ ?_) (by rintro _ _ _ ⟨⟩) (by rintro _ _ _ ⟨⟩) (by rintro _ _ _ _ _ _ ⟨⟩)
    · exact fun timer member => List.mem_append_left _ member
    · exact fun task member => List.mem_append_left _ member
    · exact fun row member => List.mem_append_left _ member
  | nothing plain =>
    refine ⟨kept, made.record ?_ ?_ ?_⟩
    · rintro _ _ _ rfl
      cases plain
    · rintro _ _ _ rfl
      cases plain
    · rintro _ _ _ _ _ _ rfl
      cases plain

end Creating

end DurableExecution.Engine

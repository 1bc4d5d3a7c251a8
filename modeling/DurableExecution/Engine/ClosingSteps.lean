import DurableExecution.Engine.ClosingTree
import DurableExecution.Engine.RunChains
import DurableExecution.Engine.WorkflowTimeout

/-
This file says of every operation what it does about the closing of runs: it closes none, or it
writes for one run, whose closing follows, and what the runs are that it brings into being.
-/

namespace DurableExecution.Engine

open Workflow (JsValue JsNumber WorkflowEvent WorkflowCommand commandToEvent Instant)
open Transaction
open Forest (Under)

/-- What a transaction writes for the run it is about before it closes it: events of that run,
its tasks and timers, and new runs. -/
structure Prepares (top : RunId) (events : List WorkflowEvent) (db db' : Database) : Prop where
  row : db'.run? top = db.run? top
  stored : ∃ rows, db'.storedEvents top = db.storedEvents top ++ rows ∧ rows.map EventRow.event = events
  others : ∀ other, other ≠ top → (db.run? other).isSome = true → db'.view other = db.view other
  grows : ∀ other, other ≠ top → ∃ more, db'.log other = db.log other ++ more ∧ ∀ event ∈ more, event.isClosing = false

section Tables

variable {now : Instant} {top runId other : RunId} {event : WorkflowEvent} {db db' : Database}

/-- Tables that a closing does not mention do not matter. -/
theorem ClosesTree.congr {db'' : Database} (closes : ClosesTree now top event db db') (runs : db''.runs = db'.runs)
    (events : db''.events = db'.events) (tasks : db''.tasks = db'.tasks) : ClosesTree now top event db db'' := by
  have row (other : RunId) : db''.run? other = db'.run? other := by rw [Database.run?, runs, Database.run?]
  have stored (other : RunId) : db''.storedEvents other = db'.storedEvents other := by
    rw [Database.storedEvents, events, Database.storedEvents]
  have views (other : RunId) : db''.view other = db'.view other :=
    RunView.ext (row other) (stored other) (by rw [Database.view, tasks, Database.view])
  refine ⟨runs ▸ closes.identities, (stored top).trans closes.stored, (views top).symm ▸ closes.closed, fun parent hangs => ?_,
    fun other under apart => ?_, fun other outside up => (views other).trans (closes.frame other outside up)⟩
  · exact (closes.tells parent hangs).congr rfl (row top) rfl (views parent)
  · exact (closes.below other under apart).congr rfl (views other) fun parent _ => ⟨rfl, row parent⟩

end Tables

/-- The logs grow by events that close no run. -/
def GrowsOpen (db db' : Database) : Prop :=
  ∀ runId, ∃ more, db'.log runId = db.log runId ++ more ∧ ∀ event ∈ more, event.isClosing = false

/-- No parent hears of a child, and runs are born. -/
structure Calm (continuing : Option RunId) (db db' : Database) : Prop where
  silent : ∀ parentRunId childId, db'.outcomes parentRunId childId = db.outcomes parentRunId childId
  bears : Bears db.runs continuing db'.runs

/-- What one transaction does about closing: no run's log gains a closing event, or the run that
the transaction is about is closed with what hangs on it. -/
inductive ClosingStep (now : Instant) (db db' : Database) : Prop
  | quiet (grows : GrowsOpen db db') (calm : Calm none db db')
  | closes {top : RunId} {events : List WorkflowEvent} {middle : Database} (prepares : Prepares top events db middle)
      (tidy : middle.Tidy) (calm : Calm (if events.any isContinuation then some top else none) db middle)
      (closes : ∀ event ∈ events, event.isClosing = true → ClosesTree now top event middle db')
      (ends : ∃ event ∈ events, event.isClosing = true)

section Steps

variable {now : Instant} {db db' : Database} {runId : RunId}

theorem GrowsOpen.ofEvents (same : db'.events = db.events) : GrowsOpen db db' := by
  refine fun runId => ⟨[], ?_, by simp⟩
  rw [List.append_nil, Database.log, Database.storedEvents, same, Database.log, Database.storedEvents]

theorem GrowsOpen.appended {events : List WorkflowEvent} (rows : db'.events = (db.appended runId events now).events)
    (quiet : ∀ event ∈ events, event.isClosing = false) : GrowsOpen db db' := by
  intro other
  have log : db'.log other = (db.appended runId events now).log other := by
    rw [Database.log, Database.storedEvents, rows, Database.log, Database.storedEvents]
  refine ⟨if other = runId then events else [], log.trans Database.appended_log, ?_⟩
  split
  · exact quiet
  · simp

theorem GrowsOpen.opened {row : RunRow} {timeouts : List TimerRow} {input : JsValue} {reason : WakeReason} :
    GrowsOpen db (db.opened row timeouts input reason now) := by
  intro other
  refine ⟨if other = row.id then [.runStarted row.workflowType input] else [], ?_, ?_⟩
  · rw [Database.log, Database.opened_storedEvents, List.map_append, Database.log]
    split <;> rfl
  · split
    · intro event listed
      rw [List.mem_singleton.mp listed]
      rfl
    · simp

theorem GrowsOpen.trans {db'' : Database} (first : GrowsOpen db db') (second : GrowsOpen db' db'') : GrowsOpen db db'' := by
  intro runId
  obtain ⟨more, grows, quiet⟩ := first runId
  obtain ⟨later, grows', quiet'⟩ := second runId
  refine ⟨more ++ later, by rw [grows', grows, List.append_assoc], fun event listed => ?_⟩
  rcases List.mem_append.mp listed with early | late
  · exact quiet event early
  · exact quiet' event late

theorem Calm.ofTables (runs : db'.runs = db.runs) (events : db'.events = db.events) : Calm none db db' := by
  constructor
  · intro parentRunId childId
    rw [Database.outcomes, Database.log, Database.storedEvents, events, Database.outcomes, Database.log, Database.storedEvents]
  · rw [runs]
    exact .refl

theorem Calm.appended {events : List WorkflowEvent} (plain : ∀ event ∈ events, ∀ childId, isOutcomeOf childId event = false)
    (runs : db'.runs = db.runs) (rows : db'.events = (db.appended runId events now).events) : Calm none db db' := by
  constructor
  · intro parentRunId childId
    have log : db'.log parentRunId = (db.appended runId events now).log parentRunId := by
      rw [Database.log, Database.storedEvents, rows, Database.log, Database.storedEvents]
    have nothing : (if parentRunId = runId then events else []).filter (isOutcomeOf childId) = [] := by
      split
      · exact List.filter_eq_nil_iff.mpr fun event listed => by simp [plain event listed childId]
      · rfl
    rw [Database.outcomes, log, Database.appended_log, List.filter_append, nothing, List.append_nil, Database.outcomes]
  · rw [runs]
    exact .refl

theorem outcomes_opened {row : RunRow} {timeouts : List TimerRow} {input : JsValue} {reason : WakeReason} (parentRunId : RunId)
    (childId : String) : (db.opened row timeouts input reason now).outcomes parentRunId childId = db.outcomes parentRunId childId := by
  rw [Database.outcomes, Database.log, Database.opened_storedEvents, List.map_append, List.filter_append, Database.outcomes,
    Database.log]
  split <;> simp [isOutcomeOf]

theorem Prepares.log {events : List WorkflowEvent} (prepares : Prepares runId events db db') : db'.log runId = db.log runId ++ events := by
  obtain ⟨rows, stored, rfl⟩ := prepares.stored
  rw [Database.log, stored, List.map_append, Database.log]

/-- Events are appended to the run that the transaction is about. -/
theorem Prepares.appended {events : List WorkflowEvent} : Prepares runId events db (db.appended runId events now) := by
  refine ⟨rfl, ⟨_, by rw [Database.appended_storedEvents, if_pos rfl], eventRows_event _⟩,
    fun other apart _ => Database.appended_view apart, fun other apart => ?_⟩
  exact ⟨[], by rw [Database.appended_log, if_neg apart], by simp⟩

/-- A run whose log has just got its closing event is closed. -/
theorem closeRun_step {row : RunRow} {event : WorkflowEvent} (tidy : db.Tidy) (found : db.run? runId = some row)
    (running : row.status = .running) (closing : event.isClosing = true) (final : isContinuation event = false) :
    Ensures (· = db.appended runId [event] now) (closeRun runId now) fun _ => ClosingStep now db := by
  have tidy' : (db.appended runId [event] now).Tidy := keepsTidy_whole.appended _ _ (fun _ _ => trivial) tidy
  have stored : (⟨runId, db.currentSequence runId + 1, event, now⟩ : EventRow) ∈
      (db.appended runId [event] now).storedEvents runId := by
    simp [Database.appended_storedEvents, eventRows]
  have seen := tidy.seen row (Database.run?_mem found)
  rw [Database.run?_id found] at seen
  refine (closeRun_closes tidy' found running stored (Nat.lt_succ_of_le seen) closing).mono (fun _ => id) fun _ db' closes => ?_
  have calm : Calm (if [event].any isContinuation then some runId else none) db (db.appended runId [event] now) := by
    rw [List.any_cons, List.any_nil, final, Bool.or_false]
    refine .appended (fun other listed childId => ?_) rfl rfl
    rw [List.mem_singleton.mp listed]
    cases event <;> first | rfl | cases closing
  refine .closes .appended tidy' calm (fun other listed _ => ?_) ⟨event, List.mem_singleton_self event, closing⟩
  rw [List.mem_singleton.mp listed]
  exact closes

/-- Tables that a closing does not mention do not matter. -/
theorem ClosingStep.congr {db'' : Database} (step : ClosingStep now db db') (runs : db''.runs = db'.runs)
    (events : db''.events = db'.events) (tasks : db''.tasks = db'.tasks) : ClosingStep now db db'' := by
  cases step with
  | quiet grows calm =>
    refine .quiet (grows.trans (.ofEvents events)) ⟨fun parentRunId childId => ?_, runs ▸ calm.bears⟩
    exact ((Calm.ofTables runs events).silent parentRunId childId).trans (calm.silent parentRunId childId)
  | closes prepares tidy calm closes ends =>
    exact .closes prepares tidy calm (fun event listed closing => (closes event listed closing).congr runs events tasks) ends

end Steps

section Preparing

variable {options : RecorderOptions} {top : RunId} {db db' : Database}

theorem Prepares.refl : Prepares top [] db db :=
  ⟨rfl, ⟨[], (List.append_nil _).symm, rfl⟩, fun _ _ _ => rfl, fun _ _ => ⟨[], (List.append_nil _).symm, by simp⟩⟩

theorem Prepares.trans {events more : List WorkflowEvent} {db'' : Database} (first : Prepares top events db db')
    (second : Prepares top more db' db'') : Prepares top (events ++ more) db db'' := by
  obtain ⟨rows, stored, rfl⟩ := first.stored
  obtain ⟨rows', stored', rfl⟩ := second.stored
  refine ⟨second.row.trans first.row, ⟨rows ++ rows', by rw [stored', stored, List.append_assoc], by simp⟩,
    fun other apart exists' => ?_,
    fun other apart => ?_⟩
  · have kept := first.others other apart exists'
    have same : db'.run? other = db.run? other := congrArg RunView.row kept
    exact (second.others other apart (same ▸ exists')).trans kept
  · obtain ⟨early, grows, quiet⟩ := first.grows other apart
    obtain ⟨late, grows', quiet'⟩ := second.grows other apart
    refine ⟨early ++ late, by rw [grows', grows, List.append_assoc], fun event listed => ?_⟩
    rcases List.mem_append.mp listed with member | member
    · exact quiet event member
    · exact quiet' event member

/-- Opening a run leaves older runs alone. -/
theorem Opens.prepares {now : Instant} {row : RunRow} {input : JsValue} {reason : WakeReason}
    (opens : Opens now row input reason db db') (fresh : ∀ other ∈ db.runs, other.id < db.nextId)
    (numbered : row.id = db.nextId) (exists' : (db.run? top).isSome = true) : Prepares top [] db db' := by
  obtain ⟨row', timeouts, columns, timed⟩ := opens
  have numbered' : row'.id = db.nextId := (RunRow.untimed_eq columns).1.trans numbered
  have older : ∀ other, (db.run? other).isSome = true → other ≠ row'.id := by
    rintro other found rfl
    obtain ⟨held, listed, same⟩ := Database.run?_isSome.mp found
    exact absurd (same.trans numbered') (Nat.ne_of_lt (fresh held listed))
  have rows : ∀ other, other ≠ row'.id → (db.opened row' timeouts input reason now).run? other = db.run? other := by
    intro other apart
    rw [Database.opened_run? fresh numbered', if_neg apart]
  have stored : ∀ other, other ≠ row'.id →
      (db.opened row' timeouts input reason now).storedEvents other = db.storedEvents other := by
    intro other apart
    rw [Database.opened_storedEvents, if_neg apart, List.append_nil]
  refine ⟨rows top (older top exists'), ⟨[], (stored top (older top exists')).trans (List.append_nil _).symm, rfl⟩,
    fun other _ found => ?_, fun other _ => GrowsOpen.opened other⟩
  have apart := older other found
  refine RunView.ext (rows other apart) (stored other apart) ?_
  simp [Database.view, Database.opened, List.filter_append, newTask, Ne.symm apart]

/-- What a decision's event creates leaves older runs alone. -/
theorem Creates.prepares {event : WorkflowEvent} (creates : Creates options top db event db')
    (fresh : ∀ other ∈ db.runs, other.id < db.nextId) : Prepares top [] db db' := by
  cases creates with
  | timer absent =>
    exact ⟨rfl, ⟨[], (List.append_nil _).symm, rfl⟩, fun _ _ _ => rfl, fun _ _ => ⟨[], (List.append_nil _).symm, by simp⟩⟩
  | stepTask queued found absent =>
    exact ⟨rfl, ⟨[], (List.append_nil _).symm, rfl⟩, fun other apart _ => Database.addTask_view apart,
      fun _ _ => ⟨[], (List.append_nil _).symm, by simp⟩⟩
  | child queued found absent opens => exact opens.prepares fresh rfl (by rw [found]; rfl)
  | successor found opens => exact opens.prepares fresh rfl (by rw [found]; rfl)
  | timerKept present => exact .refl
  | stepTaskKept queued present => exact .refl
  | stepUnqueued unqueued => exact .refl
  | childKept queued present => exact .refl
  | nothing plain => exact .refl

theorem CreatesAll.prepares {events : List WorkflowEvent} (creates : CreatesAll options top events db db')
    (fresh : ∀ other ∈ db.runs, other.id < db.nextId) : Prepares top [] db db' := by
  induction creates with
  | nil => exact .refl
  | cons first _ ih => exact (first.prepares fresh).trans (ih (first.fresh fresh))

/-- The run that a decision's event lets continue as new. -/
def continuationOf (top : RunId) (event : WorkflowEvent) : Option RunId := if isContinuation event then some top else none

theorem RunRow.untimed_chain {row row' : RunRow} (same : row'.untimed = row.untimed) : row'.status = row.status ∧
    row'.firstRunId = row.firstRunId ∧ row'.continuedFromRunId = row.continuedFromRunId ∧
      row'.parentRunId = row.parentRunId ∧ row'.parentChildId = row.parentChildId ∧ row'.id = row.id :=
  ⟨(congrArg RunRow.status same :), (congrArg RunRow.firstRunId same :), (congrArg RunRow.continuedFromRunId same :),
    (congrArg RunRow.parentRunId same :), (congrArg RunRow.parentChildId same :), (congrArg RunRow.id same :)⟩

/-- What a decision's event brings into being. -/
theorem Creates.bears {event : WorkflowEvent} {row : RunRow} (creates : Creates options top db event db')
    (found : db.run? top = some row) (running : row.status = .running) : Bears db.runs (continuationOf top event) db'.runs := by
  cases creates with
  | @child childId _ _ _ _ _ _ _ _ queued found' absent opens =>
    obtain ⟨row', timeouts, columns, timed⟩ := opens
    obtain ⟨status, first, follows, parent, child, id⟩ := RunRow.untimed_chain columns
    have parentId := Database.run?_id found'
    have known : ∀ parentRunId, row'.parentRunId = some parentRunId → ∃ parent ∈ db.runs, parent.id = parentRunId := by
      intro parentRunId hangs
      exact ⟨_, Database.run?_mem found', Option.some.inj (parent.symm.trans hangs)⟩
    refine .head .refl status (first.trans id.symm) follows (by rw [parent, child]; rfl) known fun old listed _ same => ?_
    have none' := List.find?_eq_none.mp absent old listed
    rw [parent, child] at same
    simp [same.1, same.2, childRunRow, parentId] at none'
  | @successor _ older _ found' opens =>
    obtain ⟨row', timeouts, columns, timed⟩ := opens
    obtain ⟨status, first, follows, parent, child, id⟩ := RunRow.untimed_chain columns
    cases found.symm.trans found'
    have same := Database.run?_id found
    rw [continuationOf, isContinuation, if_pos rfl, ← same]
    exact .next .refl (Database.run?_mem found) running status first parent child follows
  | nothing plain =>
    have quiet : isContinuation event = false := by
      cases event <;> first | rfl | cases plain
    rw [continuationOf, quiet]
    exact .refl
  | timer absent => exact .refl
  | stepTask queued found absent => exact .refl
  | timerKept present => exact .refl
  | stepTaskKept queued present => exact .refl
  | stepUnqueued unqueued => exact .refl
  | childKept queued present => exact .refl

/-- What a decision brings into being, when it lets its run continue as new once at most. -/
theorem CreatesAll.bears {events : List WorkflowEvent} (creates : CreatesAll options top events db db')
    (once : events.countP isContinuation ≤ 1) (fresh : ∀ other ∈ db.runs, other.id < db.nextId)
    (open' : events ≠ [] → ∃ row, db.run? top = some row ∧ row.status = .running) :
    Bears db.runs (if events.any isContinuation then some top else none) db'.runs := by
  induction creates with
  | nil => exact .refl
  | @cons event rest db middle db' first others ih =>
    obtain ⟨row, found, running⟩ := open' (List.cons_ne_nil _ _)
    have born := first.bears found running
    have kept : middle.run? top = some row := (first.prepares fresh).row.trans found
    rw [List.countP_cons] at once
    have later := ih (by omega) (first.fresh fresh) fun _ => ⟨row, kept, running⟩
    rw [List.any_cons]
    cases continues : isContinuation event with
    | true =>
      rw [continues, if_pos rfl] at once
      have none' : rest.any isContinuation = false := by
        rw [List.any_eq_false]
        have zero : rest.countP isContinuation = 0 := by omega
        exact fun event listed => List.countP_eq_zero.mp zero event listed
      rw [none'] at later
      rw [continuationOf, continues] at born
      exact born.heads later
    | false =>
      rw [continuationOf, continues] at born
      rw [Bool.false_or]
      exact born.after later

theorem Prepares.grows_open {events : List WorkflowEvent} (prepares : Prepares top events db db')
    (quiet : ∀ event ∈ events, event.isClosing = false) : GrowsOpen db db' := by
  intro other
  by_cases self : other = top
  · exact ⟨events, self ▸ prepares.log, quiet⟩
  · exact prepares.grows other self

theorem Creates.silent {event : WorkflowEvent} (creates : Creates options top db event db') (parentRunId : RunId)
    (childId : String) : db'.outcomes parentRunId childId = db.outcomes parentRunId childId := by
  cases creates with
  | child queued found absent opens =>
    obtain ⟨row', timeouts, -, -⟩ := opens
    exact outcomes_opened parentRunId childId
  | successor found opens =>
    obtain ⟨row', timeouts, -, -⟩ := opens
    exact outcomes_opened parentRunId childId
  | timer absent => rfl
  | stepTask queued found absent => rfl
  | timerKept present => rfl
  | stepTaskKept queued present => rfl
  | stepUnqueued unqueued => rfl
  | childKept queued present => rfl
  | nothing plain => rfl

theorem CreatesAll.silent {events : List WorkflowEvent} (creates : CreatesAll options top events db db') (parentRunId : RunId)
    (childId : String) : db'.outcomes parentRunId childId = db.outcomes parentRunId childId := by
  induction creates with
  | nil => rfl
  | cons first _ ih => exact ih.trans (first.silent parentRunId childId)

/-- A closing folds the log of its run. -/
theorem closeRun_folds {now : Instant} {runId : RunId} : Ensures (· = db) (closeRun runId now) fun _ _ => ∃ row next,
    db.run? runId = some row ∧ foldRunEvents (db.unseen runId row.lastSequenceNumber) (projectionFromRow row) = .ok next := by
  intro session answer session' same ran
  subst same
  have folds : Ensures (· = session.store) (closeRunIfTerminal now (session.store.runs.length + 1) runId) fun _ _ =>
      ∃ row next, session.store.run? runId = some row ∧
        foldRunEvents (session.store.unseen runId row.lastSequenceNumber) (projectionFromRow row) = .ok next := by
    refine .then refreshProjection_spec ?_
    rintro next store ⟨row, found, folds, -⟩ _ _ _ _ _
    exact ⟨row, next, found, folds⟩
  exact folds session answer session' rfl ran

/-- Of the events that a closing folds, one closes at most. -/
theorem foldRunEvents_once {row : RunRow} {next : RunProjection} {runId : RunId} {rows earlier later : List EventRow}
    (folds : foldRunEvents (db.unseen runId row.lastSequenceNumber) (projectionFromRow row) = .ok next)
    (running : row.status = .running) (stored : db.storedEvents runId = earlier ++ rows ++ later)
    (unread : ∀ stored ∈ rows, row.lastSequenceNumber < stored.sequenceNumber) :
    (rows.map EventRow.event).countP WorkflowEvent.isClosing ≤ 1 := by
  have quiet {events : List EventRow} (leaves : LeavesOpen events) : events.countP (fun stored => stored.event.isClosing) = 0 :=
    List.countP_eq_zero.mpr fun stored listed => by simp [leaves stored listed]
  have whole : (db.unseen runId row.lastSequenceNumber).countP (fun stored => stored.event.isClosing) ≤ 1 := by
    rcases (foldRunEvents_ok running folds).2 with ⟨-, leaves⟩ | ⟨-, before, last, same, closing, leaves⟩
    · rw [quiet leaves]
      exact Nat.zero_le 1
    · rw [same, List.countP_append, quiet leaves, List.countP_cons, List.countP_nil, closing]
      exact le_rfl
  have sorted := List.perm_insertionSort (fun one two : EventRow => one.sequenceNumber ≤ two.sequenceNumber)
    ((db.storedEvents runId).filter fun stored => row.lastSequenceNumber < stored.sequenceNumber)
  rw [Database.unseen, sorted.countP_eq] at whole
  have part : rows.Sublist ((db.storedEvents runId).filter fun stored => row.lastSequenceNumber < stored.sequenceNumber) := by
    have kept : rows = rows.filter fun stored => row.lastSequenceNumber < stored.sequenceNumber :=
      (List.filter_eq_self.mpr fun stored listed => by simpa using unread stored listed).symm
    rw [kept, stored]
    exact ((List.sublist_append_right earlier rows).trans (List.sublist_append_left _ later)).filter _
  rw [List.countP_map]
  exact le_trans part.countP_le whole

theorem isContinuation_closing (event : WorkflowEvent) (continues : isContinuation event = true) : event.isClosing = true := by
  cases event <;> first | rfl | cases continues

/-- What a recorded decision does about closing. -/
theorem recordWorkflowTaskResultOn_closes (input : RecordWorkflowTaskResultInput) (tidy : db.Tidy)
    (plain : ∀ event ∈ input.events, ∀ childId, isOutcomeOf childId event = false) :
    Ensures (· = db) (recordWorkflowTaskResultOn options input) fun _ db' => ClosingStep options.now db db' := by
  have stays : ClosingStep options.now db db := .quiet (.ofEvents rfl) (.ofTables rfl rfl)
  unfold recordWorkflowTaskResultOn
  refine .then (lockRunWithParent_spec _) ?_
  rintro _ _ ⟨same, rfl⟩
  rw [same]
  refine .keeps .looked fun _ => .read ?_
  split
  · exact .pure fun _ same => same ▸ stays
  · split
    · next open' =>
        refine .then (appendEvents_spec.kept (appendEvents_kept keepsTidy_whole.toFrame.log _ _ _ fun _ _ => trivial)) ?_
        rintro stored _ ⟨⟨current, rfl, length, exists'⟩, tidied⟩
        have tidy' := tidied tidy
        have keeps : Keeps KeepsTidy (input.events.forM fun event => createFor options input.runId event) :=
          .forM keepsTidy_whole.refl keepsTidy_whole.trans fun event _ => createFor_kept keepsTidy_whole.toFrame _ _ event
        refine .then ((createAll_spec tidy'.fresh _).kept keeps) ?_
        rintro _ middle ⟨creates, tidied'⟩
        have tidy'' := tidied' tidy'
        have created := creates.prepares tidy'.fresh
        have prepares := Prepares.appended.trans created
        rw [List.append_nil] at prepares
        have recorded : Calm none db (db.appended input.runId input.events options.now) := .appended plain rfl rfl
        have silent := recorded.silent
        have closes : Ensures (· = middle) (closeAfter input.events input.runId options.now)
            fun _ db' => ClosingStep options.now db db' := by
          unfold closeAfter
          split
          · next ends =>
              obtain ⟨any, listed', closing'⟩ := List.any_eq_true.mp ends
              obtain ⟨row, found⟩ := Option.isSome_iff_exists.mp (exists' (List.ne_nil_of_mem listed'))
              rw [found] at open'
              have running := isOpenStatus_running open'
              have row' : middle.run? input.runId = some row := prepares.row.trans found
              have seen := tidy.seen row (Database.run?_mem found)
              rw [Database.run?_id found] at seen
              have placed : ∀ stored ∈ eventRows input.runId (db.currentSequence input.runId) input.events options.now,
                  row.lastSequenceNumber < stored.sequenceNumber :=
                fun stored member => lt_of_le_of_lt seen (eventRows_mem member).2.2
              obtain ⟨rows, kept, -⟩ := created.stored
              rw [Database.appended_storedEvents, if_pos rfl] at kept
              intro session answer session' same ran
              obtain ⟨row'', next, found'', folds⟩ := closeRun_folds session answer session' same ran
              cases row'.symm.trans found''
              have once := foldRunEvents_once folds running kept placed
              rw [eventRows_event] at once
              have continues : input.events.countP isContinuation ≤ 1 :=
                (List.countP_mono_left fun event _ => isContinuation_closing event).trans once
              have calm : Calm (if input.events.any isContinuation then some input.runId else none) db middle :=
                ⟨fun parentRunId childId => (creates.silent parentRunId childId).trans (silent parentRunId childId),
                  creates.bears continues tidy'.fresh fun _ => ⟨row, found, running⟩⟩
              refine .closes prepares tidy'' calm (fun event listed closing => ?_) ⟨any, listed', closing'⟩
              have recorded : event ∈ (eventRows input.runId (db.currentSequence input.runId) input.events options.now).map
                  EventRow.event := by
                rw [eventRows_event]
                exact listed
              obtain ⟨stored, member, rfl⟩ := List.mem_map.mp recorded
              have present : stored ∈ middle.storedEvents input.runId := by
                rw [kept]
                exact List.mem_append_left _ (List.mem_append_right _ member)
              exact closeRun_closes tidy'' row' running present (placed stored member) closing session answer session' same ran
          · next open'' =>
              refine .pure ?_
              rintro _ rfl
              simp only [List.any_eq_true, not_exists, not_and, Bool.not_eq_true] at open''
              have none' : input.events.any isContinuation = false := by
                refine List.any_eq_false.mpr fun event listed continues => ?_
                have closing := open'' event listed
                rw [isContinuation_closing event continues] at closing
                cases closing
              have zero : input.events.countP isContinuation = 0 :=
                List.countP_eq_zero.mpr fun event listed => List.any_eq_false.mp none' event listed
              have bears := creates.bears (zero.le.trans (Nat.zero_le 1)) tidy'.fresh fun some' => by
                obtain ⟨row, found⟩ := Option.isSome_iff_exists.mp (exists' some')
                rw [found] at open'
                exact ⟨row, found, isOpenStatus_running open'⟩
              rw [none'] at bears
              exact .quiet (prepares.grows_open open'')
                ⟨fun parentRunId childId => (creates.silent parentRunId childId).trans (silent parentRunId childId), bears⟩
        refine .then closes fun _ closed step => ?_
        refine .then (insertTaskResult_spec _) ?_
        rintro _ _ ⟨rfl, -⟩
        refine .pure ?_
        rintro _ rfl
        exact step.congr rfl rfl rfl
    · exact .pure fun _ same => same ▸ stays

end Preparing

section Core

variable {now : Instant} {db : Database}

/-- One event is appended that closes nothing and tells no parent of a child. -/
theorem ClosingStep.one {db' : Database} {runId : RunId} {event : WorkflowEvent} (open' : event.isClosing = false)
    (plain : ∀ childId, isOutcomeOf childId event = false) (runs : db'.runs = db.runs)
    (rows : db'.events = (db.appended runId [event] now).events) : ClosingStep now db db' := by
  refine .quiet (.appended rows fun other listed => ?_) (.appended (fun other listed => ?_) runs rows)
  · rw [List.mem_singleton.mp listed]
    exact open'
  · rw [List.mem_singleton.mp listed]
    exact plain

theorem ClosingStep.refl : ClosingStep now db db := .quiet (.ofEvents rfl) (.ofTables rfl rfl)

theorem terminateRunOn_closes (runId : RunId) (reason : Option String) (tidy : db.Tidy) :
    Ensures (· = db) (terminateRunOn now runId reason) fun _ => ClosingStep now db := by
  refine .then lockOpenRun_spec.discard ?_
  rintro _ _ ⟨row, rfl, found, running⟩
  refine .then appendNext_spec.discard ?_
  rintro _ _ ⟨-, rfl, -⟩
  exact closeRun_step tidy found running rfl rfl

theorem timeOutRunOn_closes (runId : RunId) (timerId : String) (tidy : db.Tidy) :
    Ensures (· = db) (timeOutRunOn now runId timerId) fun _ => ClosingStep now db := by
  refine .then (lockRunWithParent_spec runId) ?_
  rintro row _ ⟨rfl, found⟩
  split
  · exact .pure fun _ same => same ▸ .refl
  · next open' =>
      cases row with
      | none => exact absurd rfl open'
      | some row =>
        have running : row.status = .running := by
          by_contra closed
          exact open' ((isTerminalState_iff _).mpr closed)
        refine .then appendNext_spec.discard ?_
        rintro _ _ ⟨-, rfl, -⟩
        refine .then (closeRun_step tidy found.symm running rfl rfl) fun _ closed step => ?_
        exact .pure fun _ same => same ▸ step

theorem fireNextOn_closes (queueName : String) (runId : RunId) (timerId : String) (tidy : db.Tidy) :
    Ensures (· = db) (fireNextOn queueName runId timerId now) fun _ => ClosingStep now db := by
  refine .read ?_
  cases db.dueTimer? queueName runId timerId now with
  | none => exact .pure fun _ same => same ▸ .refl
  | some timer =>
    dsimp only
    split
    · refine .then (timeOutRunOn_closes runId timerId tidy) fun closed timedOut step => .write ?_
      rintro _ rfl
      exact step.congr rfl rfl rfl
    · refine .read ?_
      cases (db.run? runId).filter fun row => row.status == .running with
      | none =>
        refine .write ?_
        rintro _ rfl
        exact .quiet (.ofEvents rfl) (.ofTables rfl rfl)
      | some row =>
        refine .then appendNext_spec.discard ?_
        rintro _ _ ⟨-, rfl, -⟩
        refine .wrote (.write ?_)
        rintro _ rfl
        exact .one rfl (fun _ => rfl) rfl rfl

theorem recordFailureOn_closes (input : RecordAttemptFailureInput) :
    Ensures (· = db) (recordFailureOn input now) fun _ => ClosingStep now db := by
  refine .keeps .looked fun _ => ?_
  refine .then (insertStepAttempt_spec _) ?_
  rintro inserted _ (⟨rfl, same⟩ | ⟨rfl, rfl, -⟩)
  · refine .pure ?_
    rintro _ rfl
    exact same ▸ .refl
  · refine .then appendNext_spec.discard ?_
    rintro _ _ ⟨-, rfl, -⟩
    refine .pure ?_
    rintro _ rfl
    exact .one rfl (fun _ => rfl) rfl rfl

/-- What an operation does about closing. -/
theorem EngineOp.work_closes (op : EngineOp) (tidy : db.Tidy) : Ensures (· = db) (op.work now) fun _ => ClosingStep now db := by
  cases op with
  | startRun namespaceId queueName input =>
    refine (insertRunOn_spec namespaceId queueName input tidy.fresh).discard.mono (fun _ => id) ?_
    rintro _ db' ⟨answer, ⟨-, rfl, -⟩ | ⟨-, ⟨row', timeouts, columns, -⟩, -⟩⟩
    · exact .refl
    · obtain ⟨status, first, follows, parent, child, id⟩ := RunRow.untimed_chain columns
      refine .quiet .opened ⟨outcomes_opened, .head .refl status (first.trans id.symm) follows (by rw [parent, child]; rfl) ?_ ?_⟩
      · intro parentRunId hangs
        rw [parent] at hangs
        cases hangs
      · intro old listed hangs
        rw [parent] at hangs
        cases hangs
  | recordStepResult queueName input =>
    refine (recordStepResultOn_spec input).discard.mono (fun _ => id) ?_
    rintro _ db' ⟨answer, ⟨-, rfl⟩ | ⟨-, rfl, -, -⟩⟩
    · exact .refl
    · refine .one ?_ (fun childId => ?_) rfl rfl <;> unfold toStepEvent <;> split <;> rfl
  | recordWorkflowTaskResult queueName runId taskKey expectedSeq commands =>
    refine (recordWorkflowTaskResultOn_closes _ tidy fun event listed childId => ?_).discard.mono (fun _ => id)
      fun _ _ ⟨_, step⟩ => step
    obtain ⟨command, -, rfl⟩ := List.mem_map.mp listed
    cases command <;> rfl
  | signalRun runId signalName payload =>
    refine (signalRunOn_spec signalName payload).mono (fun _ => id) ?_
    rintro _ db' (rfl | step)
    · exact .refl
    · cases step with
      | woken found running wakes =>
        cases wakes
        exact .one rfl (fun _ => rfl) rfl rfl
      | closed found running closing => cases closing
  | cancelRun runId reason =>
    refine (cancelRunOn_spec reason).mono (fun _ => id) ?_
    rintro _ db' (rfl | step)
    · exact .refl
    · cases step with
      | woken found running wakes =>
        cases wakes
        exact .one rfl (fun _ => rfl) rfl rfl
      | closed found running closing => cases closing
  | terminateRun runId reason => exact terminateRunOn_closes runId reason tidy
  | fireNext queueName runId timerId => exact fireNextOn_closes queueName runId timerId tidy
  | recordFailure input =>
    exact (recordFailureOn_closes input).discard.mono (fun _ => id) fun _ _ ⟨_, step⟩ => step

theorem CoreOp.work_closes {op : CoreOp} (tidy : db.Tidy) (inTime : op.inTime now db) :
    Ensures (· = db) (op.work now) fun _ => ClosingStep now db := by
  cases op with
  | engine op => exact op.work_closes tidy
  | enforceWorkflowTimeout runId timeoutMs =>
    refine (enforceWorkflowTimeoutOn_idle inTime).discard.mono (fun _ => id) ?_
    rintro _ db' ⟨_, rfl⟩
    exact .refl

theorem CoreOp.run_closes {op : CoreOp} (budget : Option Nat) (tidy : db.Tidy) (inTime : op.inTime now db) :
    ClosingStep now db (op.run now budget db) := by
  have spec : Ensures (· = db) (op.work now) fun _ => ClosingStep now db := CoreOp.work_closes tidy inTime
  rcases withTransaction_cases spec budget db rfl with ⟨fault, failed⟩ | ⟨answer, db', done, step⟩
  · rw [CoreOp.run, failed]
    exact .refl
  · rw [CoreOp.run, done]
    exact step

/-- Every operation keeps the tables tidy. -/
theorem CoreOp.run_tidy (op : CoreOp) (budget : Option Nat) (tidy : db.Tidy) : (op.run now budget db).Tidy := by
  refine withTransaction_keeps (fun _ => keepsTidy_whole.refl _) ?_ budget db tidy
  cases op with
  | engine op => exact op.work_whole keepsTidy_whole
  | enforceWorkflowTimeout runId timeoutMs => exact (enforceWorkflowTimeoutOn_kept keepsTidy_whole.toFrame runId timeoutMs).discard

theorem coreRun_tidy {meets : CoreOp → Instant → Database → Prop} (run : CoreRun meets db) : db.Tidy := by
  induction run with
  | empty => exact emptyDatabase_tidy
  | step run op now met budget ih => exact op.run_tidy budget ih

end Core

end DurableExecution.Engine

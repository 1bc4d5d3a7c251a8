import DurableExecution.Engine.Frames

/-
This file walks once through the operations that fire no timer: what holds of the timers and of
the runs is kept when logs grow, when a timer is started and when a run is opened with the timers
of its limits.
-/

namespace DurableExecution.Engine

open Workflow (JsValue JsNumber WorkflowEvent WorkflowCommand ParentClosePolicy commandToEvent Instant)
open Transaction

/-- The row of a run goes on: it is not opened again, and it times out by an event of its log. -/
structure RunRow.Continues (db : Database) (before after : RunRow) : Prop where
  identity : after.identity = before.identity
  running : after.status = .running → before.status = .running
  timedOut : after.status = .timedOut → before.status = .timedOut ∨
    ∃ stored ∈ db.events, stored.runId = before.id ∧ ∃ kind, stored.event = .runTimedOut kind

/-- The timers stay, the logs grow by other events than those of timers, and the runs go on. -/
structure Steady (db db' : Database) : Prop where
  timers : db'.timers = db.timers
  nextId : db.nextId ≤ db'.nextId
  events : ∃ rows, db'.events = db.events ++ rows ∧ ∀ stored ∈ rows, isTimerEvent stored.event = false
  runs : ∃ change : RunRow → RunRow, db'.runs = db.runs.map change ∧
    ∀ row ∈ db.runs, RunRow.Continues db' row (change row)

section Steadiness

variable {db db' db'' : Database}

theorem RunRow.Continues.columns {before after : RunRow} (continues : RunRow.Continues db before after) :
    after.id = before.id ∧ after.firstRunId = before.firstRunId ∧ after.queueName = before.queueName ∧
      after.parentRunId = before.parentRunId ∧ after.parentChildId = before.parentChildId ∧
      after.runTimeoutMs = before.runTimeoutMs ∧ after.executionDeadline = before.executionDeadline ∧
      after.createdAt = before.createdAt := by
  have same := continues.identity
  exact ⟨(congrArg RunRow.id same :), (congrArg RunRow.firstRunId same :), (congrArg RunRow.queueName same :),
    (congrArg RunRow.parentRunId same :), (congrArg RunRow.parentChildId same :), (congrArg RunRow.runTimeoutMs same :),
    (congrArg RunRow.executionDeadline same :), (congrArg RunRow.createdAt same :)⟩

theorem Steady.ids (steady : Steady db db') : db'.runs.map RunRow.id = db.runs.map RunRow.id := by
  obtain ⟨change, runs, continues⟩ := steady.runs
  rw [runs, List.map_map]
  exact List.map_congr_left fun row member => (continues row member).columns.1

theorem Steady.before (steady : Steady db db') {row' : RunRow} (member : row' ∈ db'.runs) :
    ∃ row ∈ db.runs, RunRow.Continues db' row row' := by
  obtain ⟨change, runs, continues⟩ := steady.runs
  rw [runs] at member
  obtain ⟨row, listed, rfl⟩ := List.mem_map.mp member
  exact ⟨row, listed, continues row listed⟩

theorem Steady.after (steady : Steady db db') {row : RunRow} (member : row ∈ db.runs) :
    ∃ row' ∈ db'.runs, RunRow.Continues db' row row' := by
  obtain ⟨change, runs, continues⟩ := steady.runs
  exact ⟨change row, runs ▸ List.mem_map_of_mem member, continues row member⟩

theorem Steady.logged (steady : Steady db db') {stored : EventRow} (listed : stored ∈ db.events) : stored ∈ db'.events := by
  obtain ⟨rows, events, -⟩ := steady.events
  exact events ▸ List.mem_append_left _ listed

/-- The rows of all runs stay. -/
theorem Steady.ofRuns (runs : db'.runs = db.runs) (timers : db'.timers = db.timers) (nextId : db.nextId ≤ db'.nextId)
    (events : ∃ rows, db'.events = db.events ++ rows ∧ ∀ stored ∈ rows, isTimerEvent stored.event = false) : Steady db db' :=
  ⟨timers, nextId, events, id, by rw [runs, List.map_id], fun row _ => ⟨rfl, id, fun closed => .inl closed⟩⟩

theorem Steady.refl (db : Database) : Steady db db :=
  .ofRuns rfl rfl le_rfl ⟨[], (List.append_nil _).symm, fun _ listed => absurd listed List.not_mem_nil⟩

theorem Steady.trans (first : Steady db db') (second : Steady db' db'') : Steady db db'' := by
  obtain ⟨rows, events, quiet⟩ := first.events
  obtain ⟨rows', events', quiet'⟩ := second.events
  obtain ⟨change, runs, continues⟩ := first.runs
  obtain ⟨change', runs', continues'⟩ := second.runs
  refine ⟨second.timers.trans first.timers, first.nextId.trans second.nextId, ⟨rows ++ rows', ?_, fun stored listed => ?_⟩,
    change' ∘ change, ?_, fun row member => ?_⟩
  · rw [events', events, List.append_assoc]
  · exact (List.mem_append.mp listed).elim (quiet stored) (quiet' stored)
  · rw [runs', runs, List.map_map]
  · have early := continues row member
    have late := continues' (change row) (runs ▸ List.mem_map_of_mem member)
    refine ⟨late.identity.trans early.identity, fun open' => early.running (late.running open'), fun closed => ?_⟩
    rcases late.timedOut closed with before | ⟨stored, listed, own, kind⟩
    · exact (early.timedOut before).imp_right fun ⟨stored, listed, rest⟩ => ⟨stored, second.logged listed, rest⟩
    · exact .inr ⟨stored, listed, own.trans early.columns.1, kind⟩

/-- A projection times out by an event. -/
theorem foldRunEvents_timedOut {events : List EventRow} {start next : RunProjection}
    (folds : foldRunEvents events start = .ok next) (closed : next.state = .timedOut) :
    start.state = .timedOut ∨ ∃ stored ∈ events, ∃ kind, stored.event = .runTimedOut kind := by
  induction events generalizing start with
  | nil =>
    cases folds
    exact .inl closed
  | cons first rest ih =>
    simp only [foldRunEvents, List.foldlM_cons, bind, Except.bind] at folds
    split at folds
    · cases folds
    · next middle applied =>
        rcases ih folds with early | ⟨stored, listed, kind⟩
        · have state := (applyEventToProjection_ok applied).2.2.2
          rw [early] at state
          refine .inr ⟨first, List.mem_cons_self, ?_⟩
          cases event : first.event <;> rw [event] at state <;> cases state
          exact ⟨_, rfl⟩
        · exact .inr ⟨stored, List.mem_cons_of_mem _ listed, kind⟩

theorem Database.unseen_events {runId : RunId} {fromSeq : Nat} {stored : EventRow} (listed : stored ∈ db.unseen runId fromSeq) :
    stored ∈ db.events ∧ stored.runId = runId := by
  unfold Database.unseen at listed
  rw [List.mem_insertionSort] at listed
  exact Database.storedEvents_mem (List.mem_filter.mp listed).1

/-- A run's row follows its log. -/
theorem Steady.projected {runId : RunId} {row : RunRow} {next : RunProjection} (distinct : (db.runs.map RunRow.id).Nodup)
    (found : db.run? runId = some row) (folds : foldRunEvents (db.unseen runId row.lastSequenceNumber) (projectionFromRow row) = .ok next) :
    Steady db (db.updateRun runId (·.withProjection next)) := by
  refine ⟨rfl, le_rfl, ⟨[], (List.append_nil _).symm, fun _ listed => absurd listed List.not_mem_nil⟩, _, rfl,
    fun other member => ?_⟩
  split
  · next same =>
      obtain rfl : other = row := by
        have own := Database.mem_run? distinct member
        rw [same, found] at own
        exact (Option.some.inj own).symm
      refine ⟨rfl, fun open' => ?_, fun closed => ?_⟩
      · by_contra shut
        have empty : db.unseen runId other.lastSequenceNumber = [] := foldRunEvents_closed shut folds
        rw [empty] at folds
        cases folds
        exact shut open'
      · refine (foldRunEvents_timedOut folds closed).imp_right fun ⟨stored, listed, kind⟩ => ?_
        obtain ⟨logged, own⟩ := Database.unseen_events listed
        exact ⟨stored, logged, own.trans same.symm, kind⟩
  · exact ⟨rfl, id, fun closed => .inl closed⟩

/-- The writes to logs, to rows and to tasks are steady, where runs have different ids. -/
theorem steady_log : LogFrame (fun event => isTimerEvent event = false) (fun db db' => (db.runs.map RunRow.id).Nodup → Steady db db') where
  control _ _ quiet := quiet
  refl db _ := .refl db
  trans _ _ _ first second distinct := (first distinct).trans (second ((first distinct).ids ▸ distinct))
  appended _ rows quiet _ := .ofRuns rfl rfl le_rfl ⟨rows, rfl, quiet⟩
  projected _ _ _ _ found folds distinct := .projected distinct found folds
  tasked _ _ _ _ _ _ _ :=
    .ofRuns rfl rfl (Nat.le_succ _) ⟨[], (List.append_nil _).symm, fun _ listed => absurd listed List.not_mem_nil⟩
  withdrawn _ _ _ := .ofRuns rfl rfl le_rfl ⟨[], (List.append_nil _).symm, fun _ listed => absurd listed List.not_mem_nil⟩

end Steadiness

/-- The timers of the limits of a run. -/
def RunRow.timeoutTimers (row : RunRow) : List TimerRow :=
  ((row.runTimeoutMs.bind fun ms => row.createdAt.after ms).map fun fireAt =>
    (⟨row.id, runTimeoutTimerId, fireAt, .pending⟩ : TimerRow)).toList ++
  (row.executionDeadline.map fun fireAt => (⟨row.id, executionTimeoutTimerId, fireAt, .pending⟩ : TimerRow)).toList

/-- A run got these limits when it was created. -/
structure RunTimeoutLimits.Bound (limits : RunTimeoutLimits) (row : RunRow) : Prop where
  runTimeout : validateTimeoutMs "runTimeoutMs" limits.runTimeoutMs = .ok row.runTimeoutMs
  represented : ∀ ms, row.runTimeoutMs = some ms → (row.createdAt.after ms).isSome
  deadline : ∃ executionTimeoutMs, validateTimeoutMs "executionTimeoutMs" limits.executionTimeoutMs = .ok executionTimeoutMs ∧
    row.executionDeadline = limits.executionDeadline.or (executionTimeoutMs.bind fun ms => row.createdAt.after ms) ∧
    (executionTimeoutMs.isSome → row.executionDeadline.isSome)

/-- The database with a new run and the timers of its limits. -/
def Database.withRun (db : Database) (row : RunRow) : Database :=
  { db with runs := db.runs ++ [row], timers := db.timers ++ row.timeoutTimers, nextId := db.nextId + 1 }

/-- The row with these limits. -/
def RunRow.limited (row : RunRow) (runTimeoutMs : Option Nat) (executionDeadline : Option Instant) : RunRow :=
  { row with runTimeoutMs := runTimeoutMs, executionDeadline := executionDeadline }

section Opening

variable {db : Database} {row : RunRow} {limits : RunTimeoutLimits} {now : Instant}

theorem liftExcept_value {A : Type} (answer : Except EngineError A) :
    Ensures (· = db) (liftExcept answer) fun value db' => db' = db ∧ answer = .ok value := by
  cases answer with
  | error error => exact .raise
  | ok answer => exact .pure fun _ same => ⟨same, rfl⟩

/-- A limit that was stored is accepted as it is. -/
theorem validateTimeoutMs_stored {name : String} {stored runTimeoutMs : Option Nat}
    (accepted : validateTimeoutMs name (stored.map fun (ms : Nat) => .finite ms) = .ok runTimeoutMs) : runTimeoutMs = stored := by
  cases stored with
  | none =>
    cases accepted
    rfl
  | some ms =>
    simp only [Option.map_some, validateTimeoutMs] at accepted
    split at accepted
    · cases accepted
      have whole : ((ms : Nat) : Rat).ceil = (ms : Int) := Rat.ceil_intCast ms
      rw [whole, Int.toNat_natCast]
    · cases accepted

theorem timeoutDate_value (start : Instant) (ms : Option Nat) : Ensures (· = db) (timeoutDate start ms) fun date db' =>
    db' = db ∧ date = (ms.bind fun ms => start.after ms) ∧ (ms.isSome → date.isSome) := by
  cases ms with
  | none => exact .pure fun _ same => ⟨same, rfl, id⟩
  | some ms =>
    refine .bind (liftExcept_value _) fun date => .pure ?_
    rintro _ ⟨rfl, dated⟩
    refine ⟨rfl, ?_, fun _ => rfl⟩
    cases after : start.after ms with
    | none =>
      rw [after] at dated
      cases dated
    | some fireAt =>
      rw [after] at dated
      cases dated
      exact after.symm

theorem executionDeadlineFor_value (startedAt : Instant) (executionTimeoutMs : Option Nat) :
    Ensures (· = db) (executionDeadlineFor startedAt limits executionTimeoutMs) fun deadline db' => db' = db ∧
      deadline = limits.executionDeadline.or (executionTimeoutMs.bind fun ms => startedAt.after ms) ∧
      (executionTimeoutMs.isSome → deadline.isSome) := by
  unfold executionDeadlineFor
  split
  · next deadline given =>
      rw [given]
      exact .pure fun _ same => ⟨same, rfl, fun _ => rfl⟩
  · next ungiven =>
      rw [ungiven]
      exact timeoutDate_value startedAt executionTimeoutMs

/-- A timeout's timer is inserted where no timer has its id. -/
theorem insertTimeoutTimer_inserts {runId : RunId} {timerId : String} (fireAt : Option Instant)
    (absent : ∀ timer ∈ db.timers, timer.key ≠ (runId, timerId)) :
    Ensures (· = db) (insertTimeoutTimer runId timerId fireAt) fun _ db' => db' =
      { db with timers := db.timers ++ (fireAt.map fun fireAt => (⟨runId, timerId, fireAt, .pending⟩ : TimerRow)).toList } := by
  cases fireAt with
  | none =>
    refine .pure ?_
    rintro _ rfl
    simp
  | some fireAt =>
    refine (insertTimer_spec timerId fireAt).discard.mono (fun _ => id) ?_
    rintro _ db' ⟨_, ⟨-, timer, listed, same⟩ | ⟨same, -⟩⟩
    · exact absurd same (absent timer listed)
    · exact same

/-- The limits of a new run become its columns and its timers. -/
theorem applyRunTimeouts_opens (fresh : ∀ other ∈ db.runs, other.id < db.nextId)
    (owned : ∀ timer ∈ db.timers, timer.runId < db.nextId) (numbered : row.id = db.nextId)
    (unlimited : row = row.limited none none) :
    Ensures (· = { db with runs := db.runs ++ [row], nextId := db.nextId + 1 }) (applyRunTimeouts row.id row.createdAt limits)
      fun _ db' => ∃ runTimeoutMs executionDeadline, limits.Bound (row.limited runTimeoutMs executionDeadline) ∧
        db' = db.withRun (row.limited runTimeoutMs executionDeadline) := by
  unfold applyRunTimeouts
  refine .then (liftExcept_value _) ?_
  rintro runTimeoutMs _ ⟨rfl, runTimeout⟩
  refine .then (liftExcept_value _) ?_
  rintro executionTimeoutMs _ ⟨rfl, executionTimeout⟩
  refine .then (executionDeadlineFor_value _ executionTimeoutMs) ?_
  rintro executionDeadline _ ⟨rfl, deadline, dated⟩
  split
  · next none' =>
      obtain ⟨noTimeout, noDeadline⟩ := Bool.and_eq_true_iff.mp none'
      obtain rfl := Option.isNone_iff_eq_none.mp noTimeout
      obtain rfl := Option.isNone_iff_eq_none.mp noDeadline
      refine .pure ?_
      rintro _ rfl
      refine ⟨none, none, ⟨runTimeout, (fun _ same => nomatch same), executionTimeoutMs, executionTimeout, deadline, dated⟩, ?_⟩
      rw [← unlimited]
      have timers : row.timeoutTimers = [] := by rw [unlimited]; rfl
      rw [Database.withRun, timers, List.append_nil]
  · have absent (id : String) : ∀ timer ∈ db.timers, timer.key ≠ (row.id, id) := by
      intro timer listed same
      have own : timer.runId = row.id := congrArg Prod.fst same
      exact absurd (own.trans numbered) (Nat.ne_of_lt (owned timer listed))
    have runs : (db.runs ++ [row]).map (fun other => if other.id = row.id then
        { other with runTimeoutMs := runTimeoutMs, executionDeadline := executionDeadline } else other) =
        db.runs ++ [row.limited runTimeoutMs executionDeadline] := by
      rw [List.map_append, List.map_singleton, if_pos rfl]
      congr 1
      conv_rhs => rw [← List.map_id db.runs]
      refine List.map_congr_left fun other member => if_neg fun same => ?_
      exact absurd (same.trans numbered) (Nat.ne_of_lt (fresh other member))
    refine .wrote (.then (timeoutDate_value _ runTimeoutMs) ?_)
    rintro fireAt _ ⟨rfl, dated', represented⟩
    refine .then (insertTimeoutTimer_inserts fireAt (absent _)) ?_
    rintro _ _ rfl
    refine (insertTimeoutTimer_inserts executionDeadline ?_).mono (fun _ => id) ?_
    · intro timer listed
      rcases List.mem_append.mp listed with old | added
      · exact absent _ timer old
      · obtain ⟨date, -, rfl⟩ := Option.map_eq_some_iff.mp (Option.mem_toList.mp added)
        intro same
        have apart : runTimeoutTimerId ≠ executionTimeoutTimerId := by decide
        exact apart (congrArg Prod.snd same)
    · rintro _ _ rfl
      refine ⟨runTimeoutMs, executionDeadline, ⟨runTimeout, fun ms same => ?_, executionTimeoutMs, executionTimeout, deadline,
        dated⟩, ?_⟩
      · have date := represented (congrArg Option.isSome same)
        have same' : runTimeoutMs = some ms := same
        rw [dated', same'] at date
        exact date
      · simp only [Database.updateRun, Database.withRun, runs, List.append_assoc, RunRow.timeoutTimers]
        rw [dated']
        rfl

theorem Database.withRun_distinct (distinct : (db.runs.map RunRow.id).Nodup) (fresh : ∀ other ∈ db.runs, other.id < db.nextId)
    (numbered : row.id = db.nextId) : ((db.withRun row).runs.map RunRow.id).Nodup := by
  change ((db.runs ++ [row]).map RunRow.id).Nodup
  rw [List.map_append, List.nodup_append]
  refine ⟨distinct, by simp, fun id before id' added => ?_⟩
  obtain ⟨old, member, rfl⟩ := List.mem_map.mp before
  rw [List.map_singleton, List.mem_singleton] at added
  rw [added, numbered]
  exact Nat.ne_of_lt (fresh old member)

/-- A run is opened: its row, the timers of its limits, and then steady writes. -/
theorem opening_spec {A : Type} {rest : Tx A} (distinct : (db.runs.map RunRow.id).Nodup)
    (fresh : ∀ other ∈ db.runs, other.id < db.nextId) (owned : ∀ timer ∈ db.timers, timer.runId < db.nextId)
    (numbered : row.id = db.nextId) (unlimited : row = row.limited none none)
    (keeps : Keeps (fun db db' => (db.runs.map RunRow.id).Nodup → Steady db db') rest) :
    Ensures (· = { db with runs := db.runs ++ [row], nextId := db.nextId + 1 })
      (applyRunTimeouts row.id row.createdAt limits >>= fun _ => rest) fun _ db' => ∃ runTimeoutMs executionDeadline,
        limits.Bound (row.limited runTimeoutMs executionDeadline) ∧
          Steady (db.withRun (row.limited runTimeoutMs executionDeadline)) db' := by
  refine .then (applyRunTimeouts_opens fresh owned numbered unlimited) ?_
  rintro _ _ ⟨runTimeoutMs, executionDeadline, bound, rfl⟩
  rintro session answer session' before ran
  refine ⟨runTimeoutMs, executionDeadline, bound, ?_⟩
  have steady := keeps session answer session' ran
  rw [before] at steady
  exact steady (Database.withRun_distinct distinct fresh numbered)

/-- The statements that follow the timers of a new run. -/
theorem opened_kept {A : Type} (runId : RunId) (namespaceId : Nat) (queueName workflowType : String) (input : JsValue)
    (reason : WakeReason) (rest : Tx A) (keeps : Keeps (fun db db' => (db.runs.map RunRow.id).Nodup → Steady db db') rest) :
    Keeps (fun db db' => (db.runs.map RunRow.id).Nodup → Steady db db')
      (discard (appendEvents runId 0 [.runStarted workflowType input] now) >>= fun _ =>
        insertWorkflowTask namespaceId runId queueName reason now >>= fun _ => rest) := by
  refine steady_log.then ?_ fun _ => steady_log.then (insertWorkflowTask_kept steady_log _ _ _ _) fun _ => keeps
  refine (appendEvents_kept steady_log runId 0 _ fun event listed => ?_).discard
  rw [List.mem_singleton.mp listed]
  rfl

/-- What starting a run does. -/
theorem insertRunOn_opens (namespaceId : Nat) (queueName : String) (input : StartRunInput)
    (distinct : (db.runs.map RunRow.id).Nodup) (fresh : ∀ other ∈ db.runs, other.id < db.nextId)
    (owned : ∀ timer ∈ db.timers, timer.runId < db.nextId) :
    Ensures (· = db) (insertRunOn namespaceId queueName input now) fun _ db' => db' = db ∨
      ∃ runTimeoutMs executionDeadline, RunTimeoutLimits.Bound ⟨input.runTimeoutMs, input.executionTimeoutMs, none⟩
          ((startedRunRow namespaceId queueName input now db.nextId).limited runTimeoutMs executionDeadline) ∧
        Steady (db.withRun ((startedRunRow namespaceId queueName input now db.nextId).limited runTimeoutMs executionDeadline)) db' := by
  refine .then (insertStartedRun_spec namespaceId queueName input) ?_
  rintro _ _ (⟨rfl, rfl, -⟩ | ⟨rfl, rfl, -⟩)
  · exact .pure fun _ same => .inl same
  · refine Ensures.mono (opening_spec distinct fresh owned rfl rfl
      (opened_kept db.nextId namespaceId queueName input.workflowType input.stored .start (pure (some db.nextId))
        (steady_log.done _))) (fun _ => id) fun _ _ => .inr

end Opening

/-- Where a new run stands: on its own, below the run whose event asks for it, or next in the
chain of a run with its limits. -/
inductive RunRow.Joins (db : Database) (row : RunRow) : Prop
  | root (free : row.parentRunId = none) (unnamed : row.parentChildId = none) (head : row.firstRunId = row.id)
  | child {stored : EventRow} {childId workflowType : String} {input : JsValue} {policy : ParentClosePolicy}
      {runTimeoutMs executionTimeoutMs : Option JsNumber} (listed : stored ∈ db.events)
      (asks : stored.event = .childStarted childId workflowType input policy runTimeoutMs executionTimeoutMs)
      (parent : row.parentRunId = some stored.runId) (named : row.parentChildId = some childId) (head : row.firstRunId = row.id)
      (bound : RunTimeoutLimits.Bound ⟨runTimeoutMs, executionTimeoutMs, none⟩ row)
  | next {older : RunRow} (listed : older ∈ db.runs) (unnamed : row.parentChildId = none)
      (chain : row.firstRunId = older.firstRunId) (runTimeout : row.runTimeoutMs = older.runTimeoutMs)
      (deadline : row.executionDeadline = older.executionDeadline)

/-- A property of the timers and the runs that every write keeps but those that fire a timer. -/
structure TimerInvariant (holds : Database → Prop) : Prop where
  distinct : ∀ db, holds db → (db.runs.map RunRow.id).Nodup
  fresh : ∀ db, holds db → ∀ row ∈ db.runs, row.id < db.nextId
  owned : ∀ db, holds db → ∀ timer ∈ db.timers, timer.runId < db.nextId
  steady : ∀ db db', holds db → Steady db db' → holds db'
  started : ∀ (db : Database) (runId : RunId) (timerId : String) (fireAt : Instant), holds db →
    isTimeoutTimerId timerId = false → (db.run? runId).isSome → (∀ timer ∈ db.timers, timer.key ≠ (runId, timerId)) →
    holds { db with timers := db.timers ++ [⟨runId, timerId, fireAt, .pending⟩] }
  opened : ∀ (db : Database) (row : RunRow), holds db → row.id = db.nextId → row.status = .running → row.Joins db →
    (∀ ms, row.runTimeoutMs = some ms → (row.createdAt.after ms).isSome) → holds (db.withRun row)

section Walk

variable {holds : Database → Prop} (invariant : TimerInvariant holds) {now : Instant} {db : Database} {runId : RunId}

include invariant

theorem TimerInvariant.keeps {A : Type} {work : Tx A}
    (keeps : Keeps (fun db db' => (db.runs.map RunRow.id).Nodup → Steady db db') work) : Ensures holds work fun _ => holds :=
  fun session answer session' before ran =>
    invariant.steady _ _ before (keeps session answer session' ran (invariant.distinct _ before))

/-- A run that is opened joins the others. -/
theorem TimerInvariant.opens {row : RunRow} {limits : RunTimeoutLimits} {A : Type} {rest : Tx A} (before : holds db)
    (numbered : row.id = db.nextId) (running : row.status = .running) (unlimited : row = row.limited none none)
    (joins : ∀ runTimeoutMs executionDeadline, limits.Bound (row.limited runTimeoutMs executionDeadline) →
      (row.limited runTimeoutMs executionDeadline).Joins db)
    (keeps : Keeps (fun db db' => (db.runs.map RunRow.id).Nodup → Steady db db') rest) :
    Ensures (· = { db with runs := db.runs ++ [row], nextId := db.nextId + 1 })
      (applyRunTimeouts row.id row.createdAt limits >>= fun _ => rest) fun _ => holds := by
  refine (opening_spec (invariant.distinct db before) (invariant.fresh db before) (invariant.owned db before) numbered unlimited
    keeps).mono (fun _ => id) ?_
  rintro _ db' ⟨runTimeoutMs, executionDeadline, bound, steady⟩
  have joined := joins runTimeoutMs executionDeadline bound
  exact invariant.steady _ _ (invariant.opened db (row.limited runTimeoutMs executionDeadline) before numbered running joined
    bound.represented) steady

theorem insertRunOn_holds (namespaceId : Nat) (queueName : String) (input : StartRunInput) :
    Ensures holds (insertRunOn namespaceId queueName input now) fun _ => holds := by
  refine .each fun db before => ?_
  refine (insertRunOn_opens namespaceId queueName input (invariant.distinct db before) (invariant.fresh db before)
    (invariant.owned db before)).mono (fun _ => id) ?_
  rintro _ db' (rfl | ⟨runTimeoutMs, executionDeadline, bound, steady⟩)
  · exact before
  · exact invariant.steady _ _ (invariant.opened db _ before rfl rfl (.root rfl rfl rfl) bound.represented) steady

/-- The recorder's events are in the log when it creates what they ask for. -/
def Recorded (holds : Database → Prop) (runId : RunId) (events : List WorkflowEvent) (db : Database) : Prop :=
  holds db ∧ ∀ event ∈ events, (db.run? runId).isSome ∧ ∃ stored ∈ db.events, stored.runId = runId ∧ stored.event = event

theorem TimerInvariant.recorded (runId : RunId) (events : List WorkflowEvent) : TimerInvariant (Recorded holds runId events) where
  distinct db before := invariant.distinct db before.1
  fresh db before := invariant.fresh db before.1
  owned db before := invariant.owned db before.1
  steady db db' before steady := by
    refine ⟨invariant.steady db db' before.1 steady, fun event listed => ?_⟩
    obtain ⟨exists', stored, logged, same⟩ := before.2 event listed
    obtain ⟨row, member, own⟩ := Database.run?_isSome.mp exists'
    obtain ⟨row', member', continues⟩ := steady.after member
    exact ⟨Database.run?_isSome.mpr ⟨row', member', continues.columns.1.trans own⟩, stored, steady.logged logged, same⟩
  started db runId' timerId fireAt before apart exists' absent :=
    ⟨invariant.started db runId' timerId fireAt before.1 apart exists' absent, before.2⟩
  opened db row before numbered running joins represented := by
    refine ⟨invariant.opened db row before.1 numbered running joins represented, fun event listed => ?_⟩
    obtain ⟨exists', logged⟩ := before.2 event listed
    obtain ⟨other, member, own⟩ := Database.run?_isSome.mp exists'
    exact ⟨Database.run?_isSome.mpr ⟨other, List.mem_append_left _ member, own⟩, logged⟩

theorem insertTimer_holds {timerId : String} (fireAt : Instant) (apart : isTimeoutTimerId timerId = false)
    (exists' : ∀ db, holds db → (db.run? runId).isSome) : Ensures holds (insertTimer runId timerId fireAt) fun _ => holds := by
  refine .each fun db before => (insertTimer_spec timerId fireAt).mono (fun _ => id) ?_
  rintro _ db' (⟨rfl, -⟩ | ⟨rfl, absent⟩)
  · exact before
  · exact invariant.started db runId timerId fireAt before apart (exists' db before) absent

/-- The children that a decision starts. -/
theorem createChildRun_holds {queueName childId workflowType : String} {input : JsValue} {policy : ParentClosePolicy}
    {runTimeoutMs executionTimeoutMs : Option JsNumber} (asked : ∀ db, holds db → ∃ stored ∈ db.events,
      stored.runId = runId ∧ stored.event = .childStarted childId workflowType input policy runTimeoutMs executionTimeoutMs) :
    Ensures holds (createChildRun runId queueName childId workflowType input policy runTimeoutMs executionTimeoutMs now)
      fun _ => holds := by
  refine .each fun db before => ?_
  have inserted : Ensures (· = db) (insertChildRun runId queueName childId workflowType input policy now)
      fun created db' => created = none ∧ db' = db ∨ ∃ parent, db.run? runId = some parent ∧
        created = some (childRunRow parent queueName childId workflowType input policy now db.nextId) ∧
        db' = db.addRun (childRunRow parent queueName childId workflowType input policy now) := by
    refine .statement ?_
    rintro store answer store' rfl inserted
    split at inserted
    · cases inserted
    · cases inserted
      exact .inl ⟨rfl, rfl⟩
    · next parent found absent =>
        cases inserted
        exact .inr ⟨parent, found, rfl, rfl⟩
  refine .then inserted ?_
  rintro _ _ (⟨rfl, rfl⟩ | ⟨parent, found, rfl, rfl⟩)
  · refine .keeps .looked fun _ => .pure ?_
    rintro _ rfl
    exact before
  · obtain ⟨stored, logged, own, event⟩ := asked db before
    have parentId : parent.id = stored.runId := (Database.run?_id found).trans own.symm
    refine invariant.opens before rfl rfl rfl (fun runTimeout deadline bound => ?_)
      (opened_kept db.nextId _ queueName workflowType input (.childStarted runId childId) (pure true) (steady_log.done _))
    exact .child logged event (congrArg some parentId) rfl rfl bound

theorem createContinuedRun_holds (input : JsValue) : Ensures holds (createContinuedRun runId input now) fun _ => holds := by
  refine .each fun db before => .read ?_
  cases found : db.run? runId with
  | none => exact .raise
  | some row =>
    have inserted : Ensures (E := EngineError) (· = db)
        (statement fun db => some (db.nextId, db.addRun (continuedRunRow row input now)))
        fun next db' => next = db.nextId ∧ db' = db.addRun (continuedRunRow row input now) := by
      refine .statement ?_
      rintro store answer store' rfl inserted
      cases inserted
      exact ⟨rfl, rfl⟩
    refine .then inserted ?_
    rintro _ _ ⟨rfl, rfl⟩
    refine invariant.opens before rfl rfl rfl (fun runTimeout deadline bound => ?_) ?_
    · obtain ⟨executionTimeoutMs, unasked, deadline', -⟩ := bound.deadline
      cases unasked
      exact .next (Database.run?_mem found) rfl rfl (validateTimeoutMs_stored bound.runTimeout)
        (deadline'.trans (Option.or_none ..))
    · refine steady_log.then ?_ fun _ => insertWorkflowTask_kept steady_log _ _ _ _
      refine (appendEvents_kept steady_log db.nextId 0 _ fun event listed => ?_).discard
      rw [List.mem_singleton.mp listed]
      rfl

theorem createFor_holds (options : RecorderOptions) (event : WorkflowEvent)
    (apart : ∀ timerId fireAt durationMs, event = .timerStarted timerId fireAt durationMs → isTimeoutTimerId timerId = false)
    (asked : ∀ db, holds db → (db.run? runId).isSome ∧ ∃ stored ∈ db.events, stored.runId = runId ∧ stored.event = event) :
    Ensures holds (createFor options runId event) fun _ => holds := by
  unfold createFor
  split
  · refine .bind (invariant.keeps (.discard (.select steady_log.refl _))) fun _ => ?_
    split
    · exact .raise
    · exact (createChildRun_holds invariant fun db before => (asked db before).2).discard.mono (fun _ => id)
        fun _ _ ⟨_, after⟩ => after
  · exact createContinuedRun_holds invariant _
  · split
    · exact .pure fun _ => id
    · refine invariant.keeps (steady_log.read fun found => ?_)
      cases found with
      | none => exact .raise _
      | some row => exact (enqueueStepTask_kept steady_log _ _ _ _ _ _).discard
  · next timerId fireAt durationMs =>
      exact (insertTimer_holds invariant fireAt (apart _ _ _ rfl) fun db before => (asked db before).1).discard.mono (fun _ => id)
        fun _ _ ⟨_, after⟩ => after
  · exact .pure fun _ => id

theorem recordWorkflowTaskResultOn_holds (options : RecorderOptions) (input : RecordWorkflowTaskResultInput)
    (quiet : ∀ event ∈ input.events, isTimerEvent event = false) (apart : ∀ timerId fireAt durationMs,
      .timerStarted timerId fireAt durationMs ∈ input.events → isTimeoutTimerId timerId = false) :
    Ensures holds (recordWorkflowTaskResultOn options input) fun _ => holds := by
  unfold recordWorkflowTaskResultOn
  refine .bind (invariant.keeps (lockRunWithParent_kept steady_log _)) fun row => ?_
  refine .bind (invariant.keeps (.discard (.select steady_log.refl _))) fun _ => ?_
  refine .bind (invariant.keeps (.select steady_log.refl _)) fun previous => ?_
  cases previous with
  | some previous => exact .pure fun _ => id
  | none =>
    dsimp only
    split
    · have appended : Ensures holds (appendEvents input.runId input.expectedSeq input.events options.now)
          fun _ => Recorded holds input.runId input.events := by
        refine .each fun db before => ?_
        refine (appendEvents_spec.kept (appendEvents_kept steady_log _ _ _ quiet)).mono (fun _ => id) ?_
        rintro rows _ ⟨⟨-, rfl, -, exists'⟩, steady⟩
        refine ⟨invariant.steady _ _ before (steady (invariant.distinct db before)), fun event listed => ⟨?_, ?_⟩⟩
        · exact exists' (List.ne_nil_of_mem listed)
        · have inserted : event ∈ (eventRows input.runId (db.currentSequence input.runId) input.events options.now).map
              EventRow.event := by rwa [eventRows_event]
          obtain ⟨stored, member, rfl⟩ := List.mem_map.mp inserted
          exact ⟨stored, List.mem_append_right _ member, (eventRows_mem member).1, rfl⟩
      have recorded := invariant.recorded input.runId input.events
      refine .bind appended fun stored => .bind (.forM fun event listed => ?_) fun _ => ?_
      · exact createFor_holds recorded options event (fun _ _ _ same => apart _ _ _ (same ▸ listed))
          fun db before => before.2 event listed
      · refine .bind (recorded.keeps ?_) fun _ => .bind (recorded.keeps ?_) fun _ => .pure fun _ before => before.1
        · unfold closeAfter
          split
          · exact closeRun_kept steady_log _
          · exact steady_log.done _
        · refine .statement fun db answer db' inserted _ => ?_
          split at inserted
          · cases inserted
            exact .ofRuns rfl rfl le_rfl ⟨[], (List.append_nil _).symm, fun _ listed => absurd listed List.not_mem_nil⟩
          · cases inserted
    · exact .pure fun _ => id

theorem recordStepResultOn_holds (options : RecorderOptions) (input : RecordStepResultInput) :
    Ensures holds (recordStepResultOn options input) fun _ => holds := by
  refine .each fun db before => (recordStepResultOn_spec input).mono (fun _ => id) ?_
  rintro answer _ (⟨-, rfl⟩ | ⟨-, rfl, -, -⟩)
  · exact before
  · refine invariant.steady db _ before (.ofRuns rfl rfl le_rfl ⟨_, rfl, fun stored listed => ?_⟩)
    rw [List.mem_singleton.mp (eventRows_mem listed).2.1, toStepEvent]
    split <;> rfl

theorem recordFailureOn_holds (input : RecordAttemptFailureInput) : Ensures holds (recordFailureOn input now) fun _ => holds := by
  unfold recordFailureOn
  refine .bind (invariant.keeps (.discard (.select steady_log.refl _))) fun _ => .bind (invariant.keeps ?_) fun inserted => ?_
  · refine .statement fun db answer db' inserted _ => ?_
    split at inserted
    · cases inserted
      exact .refl db
    · split at inserted
      · cases inserted
        exact .ofRuns rfl rfl le_rfl ⟨[], (List.append_nil _).symm, fun _ listed => absurd listed List.not_mem_nil⟩
      · cases inserted
  · split
    · exact invariant.keeps (steady_log.then (appendNext_kept steady_log _ _ rfl).discard fun _ => steady_log.done _)
    · exact .pure fun _ => id

omit invariant

/-- A decision starts no timer under the id of a timeout, which workflow code cannot name. -/
def EngineOp.sparesTimeouts : EngineOp → Prop
  | .recordWorkflowTaskResult _ _ _ _ commands =>
    ∀ timerId fireAt durationMs, .startTimer timerId fireAt durationMs ∈ commands → isTimeoutTimerId timerId = false
  | _ => True

include invariant

/-- Every operation but the firing of a timer keeps the property. -/
theorem EngineOp.work_holds (op : EngineOp) (spares : op.sparesTimeouts)
    (apart : ∀ queueName runId timerId, op ≠ .fireNext queueName runId timerId) : Ensures holds (op.work now) fun _ => holds := by
  have discarded {A : Type} {work : Tx A} (ensures : Ensures holds work fun _ => holds) :
      Ensures holds (discard work) fun _ => holds := ensures.discard.mono (fun _ => id) fun _ _ ⟨_, after⟩ => after
  cases op with
  | startRun namespaceId queueName input => exact discarded (insertRunOn_holds invariant namespaceId queueName input)
  | recordStepResult queueName input => exact discarded (recordStepResultOn_holds invariant _ input)
  | recordWorkflowTaskResult queueName runId taskKey expectedSeq commands =>
    refine discarded (recordWorkflowTaskResultOn_holds invariant _ _ (fun event listed => ?_)
      fun timerId fireAt durationMs listed => ?_)
    · obtain ⟨command, -, rfl⟩ := List.mem_map.mp listed
      exact commandToEvent_isTimerEvent command
    · obtain ⟨command, member, same⟩ := List.mem_map.mp listed
      cases command <;> cases same
      exact spares _ _ _ member
  | signalRun runId signalName payload => exact invariant.keeps (signalRunOn_kept steady_log runId signalName payload)
  | cancelRun runId reason => exact invariant.keeps (cancelRunOn_kept steady_log runId reason)
  | terminateRun runId reason => exact invariant.keeps (terminateRunOn_kept steady_log runId reason)
  | fireNext queueName runId timerId => exact absurd rfl (apart queueName runId timerId)
  | recordFailure input => exact discarded (recordFailureOn_holds invariant input)

/-- An operation keeps the property, where the firing of a timer does. -/
theorem EngineOp.run_holds (op : EngineOp) (spares : op.sparesTimeouts) (before : holds db)
    (fires : ∀ queueName runId timerId, op = .fireNext queueName runId timerId →
      Ensures (· = db) (fireNextOn queueName runId timerId now) fun _ => holds) (budget : Option Nat) : holds (op.run now budget db) := by
  have ensures : Ensures (· = db) (op.work now) fun _ => holds := by
    by_cases firing : ∃ queueName runId timerId, op = .fireNext queueName runId timerId
    · obtain ⟨queueName, runId, timerId, rfl⟩ := firing
      exact fires queueName runId timerId rfl
    · refine (op.work_holds invariant spares fun queueName runId timerId same => ?_).mono (fun _ same => same ▸ before) fun _ _ => id
      exact firing ⟨queueName, runId, timerId, same⟩
  rcases withTransaction_cases ensures budget db rfl with ⟨fault, failed⟩ | ⟨answer, db', done, after⟩
  · rw [EngineOp.run, failed]
    exact before
  · rw [EngineOp.run, done]
    exact after

end Walk

/-- What a round of `fireNext` does for the timer that it picked: an ordinary timer of an open run
records its event, the mark and a task, a timeout of an open run closes it, and a timer of a closed
run is cancelled. -/
inductive FiringOutcome (runId : RunId) (timerId : String) (fireAt now : Instant) (db : Database) : Database → Prop
  | fired {row : RunRow} (apart : isTimeoutTimerId timerId = false) (found : db.run? runId = some row)
      (running : row.status = .running) : FiringOutcome runId timerId fireAt now db
        (((db.appended runId [.timerFired timerId] now).setTimer runId timerId .fired).addTask
          (newTask row.namespaceId runId row.queueName (.workflowTask (.timerFired timerId)) fireAt.ms))
  | timedOut {row : RunRow} {closed : Database} (timeout : isTimeoutTimerId timerId = true) (found : db.run? runId = some row)
      (running : row.status = .running)
      (steady : Steady (db.appended runId [.runTimedOut (some (timeoutKindOf timerId))] now) closed)
      (shut : ∀ row ∈ closed.runs, row.id = runId → row.status ≠ .running) :
      FiringOutcome runId timerId fireAt now db (closed.setTimer runId timerId .fired)
  | cancelled (closed : ∀ row, db.run? runId = some row → row.status ≠ .running) :
      FiringOutcome runId timerId fireAt now db (db.setTimer runId timerId .cancelled)

section Firing

variable {db : Database} {runId : RunId} {timerId : String} {now : Instant}

theorem TimerRow.isNamed_iff {timer : TimerRow} : timer.isNamed runId timerId = true ↔ timer.key = (runId, timerId) := by
  simp [TimerRow.isNamed, TimerRow.key]

/-- The due timer that a tick finds. -/
theorem Database.dueTimer?_some {queueName : String} {timer : TimerRow}
    (due : db.dueTimer? queueName runId timerId now = some timer) : timer ∈ db.timers ∧ timer.key = (runId, timerId) ∧
      timer.state = .pending ∧ timer.fireAt.ms ≤ now.ms := by
  have listed := List.mem_of_find?_eq_some due
  have meets := List.find?_some due
  simp only [Bool.and_eq_true, TimerRow.isNamed_iff, beq_iff_eq, decide_eq_true_eq] at meets
  exact ⟨listed, meets.1.1.1, meets.1.1.2, meets.1.2⟩

theorem timeOutRunOn_outcome (coherent : db.Coherent none) : Ensures (· = db) (timeOutRunOn now runId timerId) fun closed db' =>
      closed = false ∧ db' = db ∧ (∀ row, db.run? runId = some row → row.status ≠ .running) ∨
      closed = true ∧ ∃ row, db.run? runId = some row ∧ row.status = .running ∧
        Steady (db.appended runId [.runTimedOut (some (timeoutKindOf timerId))] now) db' ∧
        ∀ row ∈ db'.runs, row.id = runId → row.status ≠ .running := by
  refine .then (lockRunWithParent_spec runId) ?_
  rintro row _ ⟨same, rfl⟩
  rw [same]
  split
  · next closed =>
      refine .pure ?_
      rintro _ rfl
      refine .inl ⟨rfl, rfl, fun row found => ?_⟩
      rw [found] at closed
      exact (isTerminalState_iff _).mp closed
  · next open' =>
      cases found : db.run? runId with
      | none =>
        rw [found] at open'
        exact absurd rfl open'
      | some row =>
        rw [found] at open'
        have running : row.status = .running := by
          by_contra closed
          exact open' ((isTerminalState_iff _).mpr closed)
        have appended : (db.appended runId [.runTimedOut (some (timeoutKindOf timerId))] now).Coherent (some runId) :=
          coherent.appended found running (.inr rfl) (.inl rfl)
        refine .then appendNext_spec.discard ?_
        rintro _ _ ⟨-, rfl, -⟩
        refine .then ((closeRun_spec appended).kept (closeRun_kept steady_log runId)) ?_
        rintro _ closed ⟨⟨row', next, closes⟩, steady⟩
        have steady := steady coherent.distinct
        refine .pure ?_
        rintro _ rfl
        refine .inr ⟨rfl, row, rfl, running, steady, fun other listed own running' => ?_⟩
        -- an open run has no closing event in its log
        have settled := closes.coherent appended
        have here := Database.mem_run? settled.distinct listed
        rw [own] at here
        have silent := settled.settled runId other here (by simp) running'
        have logged := steady.logged (List.mem_append_right db.events (List.mem_singleton.mpr rfl))
        cases silent _ (List.mem_filter.mpr ⟨logged, beq_self_eq_true runId⟩)

/-- What a round of `fireNext` does for a timer that is due. -/
theorem fireNextOn_picked {queueName : String} {timer : TimerRow} (coherent : db.Coherent none)
    (due : db.dueTimer? queueName runId timerId now = some timer) : Ensures (· = db) (fireNextOn queueName runId timerId now) fun _ db' =>
      FiringOutcome runId timerId timer.fireAt now db db' := by
  have named : timer.timerId = timerId := congrArg Prod.snd (Database.dueTimer?_some due).2.1
  refine .read ?_
  rw [due]
  dsimp only
  split
  · next timeout =>
      rw [named] at timeout
      refine .then (timeOutRunOn_outcome coherent) ?_
      rintro _ closed (⟨rfl, rfl, shut⟩ | ⟨rfl, row, found, running, steady, shut⟩)
      · refine .write ?_
        rintro _ rfl
        exact .cancelled shut
      · refine .write ?_
        rintro _ rfl
        exact .timedOut timeout found running steady shut
  · next apart =>
      rw [named, Bool.not_eq_true] at apart
      refine .read ?_
      cases found : (db.run? runId).filter fun row => row.status == .running with
      | none =>
        refine .write ?_
        rintro _ rfl
        refine .cancelled fun row here running => ?_
        rw [here, Option.filter_some, if_pos (beq_iff_eq.mpr running)] at found
        cases found
      | some row =>
        obtain ⟨here, running⟩ := Option.filter_eq_some_iff.mp found
        refine .then appendNext_spec.discard ?_
        rintro _ _ ⟨-, rfl, -⟩
        refine .wrote (.write ?_)
        rintro _ rfl
        exact .fired apart here (beq_iff_eq.mp running)

/-- What a round of `fireNext` does. -/
theorem fireNextOn_outcome (queueName : String) (coherent : db.Coherent none) :
    Ensures (· = db) (fireNextOn queueName runId timerId now) fun _ db' => db' = db ∨
      ∃ timer, db.dueTimer? queueName runId timerId now = some timer ∧ FiringOutcome runId timerId timer.fireAt now db db' := by
  cases due : db.dueTimer? queueName runId timerId now with
  | none =>
    refine .read ?_
    rw [due]
    exact .pure fun _ => .inl
  | some timer => exact (fireNextOn_picked coherent due).mono (fun _ => id) fun _ _ outcome => .inr ⟨timer, rfl, outcome⟩

end Firing

end DurableExecution.Engine

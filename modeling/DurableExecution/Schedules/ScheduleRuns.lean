import Mathlib.Logic.Relation
import DurableExecution.Schedules.Ledger

/-
This file models the managers, backfills and runs that work on the schedules side by side,
one transaction at a time, and shows what holds in every state they reach.
-/

namespace DurableExecution.Schedules

open Engine (RunId RunState)
open Workflow (JsValue)

/-- A manager: its queue, the latest time its monotonic clock has served, the reading of the tick that
is under way, and the snapshot of a select that has begun to look for a buffer to drain. -/
structure Manager where
  queueName : String
  highWater : Option Int
  ticking : Option Int
  looking : Option ScheduleTables

/-- `createMonotonicClock(source).now()`. -/
def Manager.now (manager : Manager) (reading : Int) : Int × Manager :=
  match manager.highWater with
  | some high => if reading < high then (high, manager) else (reading, { manager with highWater := some reading })
  | none => (reading, { manager with highWater := some reading })

/-- The tables, the managers, the backfills with the instants that are left to them, all readings
that the clocks have shown, and the times that ticks have worked with. -/
structure World where
  tables : ScheduleTables
  managers : Nat → Manager
  backfills : Nat → Option (ScheduleId × List Int)
  readings : List Int
  ticks : List Int

/-- A statement or a transaction of the schedule manager, or what the engine does with runs. -/
inductive ScheduleOp where
  | creates (manager : Nat) (input : CreateScheduleInput) (startAt : Option Int) (reading : Int)
  | begins (manager : Nat) (reading : Int)
  | looks (manager : Nat)
  | drains (manager : Nat) (locked : ScheduleId → Bool)
  | fires (manager : Nat) (locked : ScheduleId → Bool)
  | ends (manager : Nat)
  | restarts (manager : Nat) (queueName : String)
  | backfills (caller : Nat) (id : ScheduleId) (from' to' : Int)
  | handles (caller : Nat)
  | abandons (caller : Nat)
  | pauses (id : ScheduleId)
  | resumes (manager : Nat) (id : ScheduleId) (reading : Int)
  | closes (runId : RunId) (status : RunState)
  | continues (runId : RunId) (input : JsValue)
  | startsOther (run : ScheduledRun)

section Operations

variable (zones : ZoneTable)

def World.withManager (world : World) (manager : Nat) (state : Manager) : World :=
  { world with managers := Function.update world.managers manager state }

/-- What one operation makes of the world. One that is not enabled leaves it alone. -/
def ScheduleOp.run (world : World) : ScheduleOp → World
  | .creates manager input startAt reading =>
    let (now, state) := (world.managers manager).now reading
    let world := { world.withManager manager state with readings := reading :: world.readings }
    { world with tables := createSchedule zones world.tables state.queueName input (startAt.getD now) }
  | .begins manager reading =>
    let (now, state) := (world.managers manager).now reading
    { world.withManager manager { state with ticking := some now } with
      readings := reading :: world.readings
      ticks := now :: world.ticks }
  | .looks manager =>
    if (world.managers manager).ticking.isSome then
      world.withManager manager { world.managers manager with looking := some world.tables }
    else world
  | .drains manager locked =>
    match (world.managers manager).looking with
    | some snapshot =>
      { world.withManager manager { world.managers manager with looking := none } with
        tables := (drainNextBuffer snapshot world.tables (world.managers manager).queueName locked).2 }
    | none => world
  | .fires manager locked =>
    match (world.managers manager).ticking with
    | some now =>
      { world with tables := (fireNextDue zones world.tables (world.managers manager).queueName locked now).2 }
    | none => world
  | .ends manager => world.withManager manager { world.managers manager with ticking := none, looking := none }
  | .restarts manager queueName => world.withManager manager ⟨queueName, none, none, none⟩
  | .backfills caller id from' to' =>
    match backfillInstants zones world.tables id from' to' with
    | .ok instants => { world with backfills := Function.update world.backfills caller (some (id, instants)) }
    | .error _ => world
  | .handles caller =>
    match world.backfills caller with
    | some (id, scheduledFor :: rest) =>
      { world with
        tables := backfillTrigger world.tables id scheduledFor
        backfills := Function.update world.backfills caller (some (id, rest)) }
    | _ => world
  | .abandons caller => { world with backfills := Function.update world.backfills caller none }
  | .pauses id => { world with tables := pause world.tables id }
  | .resumes manager id reading =>
    let (now, state) := (world.managers manager).now reading
    let world := { world.withManager manager state with readings := reading :: world.readings }
    { world with tables := resume zones world.tables id now }
  | .closes runId status => { world with tables := closeRun world.tables runId status }
  | .continues runId input => { world with tables := continueRun world.tables runId input }
  | .startsOther run => { world with tables := createRun world.tables run }

/-- The worlds that operations of some kind lead to. -/
inductive ScheduleRun (allowed : ScheduleOp → World → Prop) (start : World) : World → Prop where
  | refl : ScheduleRun allowed start start
  | step {world : World} (run : ScheduleRun allowed start world) (op : ScheduleOp) (met : allowed op world) :
      ScheduleRun allowed start (op.run zones world)

end Operations

/-- No schedule was created yet, and no manager has read its clock. -/
structure World.Empty (world : World) : Prop where
  tables : world.tables = ⟨[], [], [], [], [], 0⟩
  ticks : world.ticks = []
  managers : ∀ manager, (world.managers manager).highWater = none ∧ (world.managers manager).ticking = none
  backfills : ∀ caller, world.backfills caller = none

section Transactions

variable {zones : ZoneTable} {tables : ScheduleTables} {id : ScheduleId} {scheduledFor now : Int}
  {schedule : ScheduleRow} {queueName : String} {locked : ScheduleId → Bool}

/-- A change of columns of a schedule that its triggers do not depend on. -/
inductive MarkStep (marked : ScheduleId → Prop) (tables : ScheduleTables) : ScheduleTables → Prop where
  | marks (id : ScheduleId) (own : marked id) (change : ScheduleRow → ScheduleRow)
      (keeps : ∀ row, (change row).id = row.id ∧ (change row).overlapPolicy = row.overlapPolicy ∧
        (change row).bufferedFor = row.bufferedFor) :
      MarkStep marked tables (tables.updateSchedule id change)

/-- What one transaction does: at most one write to the ledger, and then at most one mark. -/
def LedgerSteps (blind : Prop) (marked : ScheduleId → Prop) (tables tables' : ScheduleTables) : Prop :=
  ∃ middle, Relation.ReflGen (LedgerStep blind) tables middle ∧ Relation.ReflGen (MarkStep marked) middle tables'

variable {blind : Prop} {marked : ScheduleId → Prop}

theorem LedgerSteps.refl : LedgerSteps blind marked tables tables := ⟨tables, .refl, .refl⟩

theorem LedgerSteps.single {tables' : ScheduleTables} (step : LedgerStep blind tables tables') :
    LedgerSteps blind marked tables tables' := ⟨tables', .single step, .refl⟩

theorem LedgerSteps.marks {middle : ScheduleTables} (steps : Relation.ReflGen (LedgerStep blind) tables middle)
    (own : marked id) (change : ScheduleRow → ScheduleRow) (keeps : ∀ row, (change row).id = row.id ∧
      (change row).overlapPolicy = row.overlapPolicy ∧ (change row).bufferedFor = row.bufferedFor) :
    LedgerSteps blind marked tables (middle.updateSchedule id change) :=
  ⟨middle, steps, .single (.marks id own change keeps)⟩

theorem Consistent.steps {tables' : ScheduleTables} (consistent : Consistent tables)
    (steps : LedgerSteps blind marked tables tables') : Consistent tables' := by
  obtain ⟨middle, written, marked⟩ := steps
  have between : Consistent middle := by
    cases written with
    | refl => exact consistent
    | single step => exact consistent.step step
  cases marked with
  | refl => exact between
  | single step =>
    obtain ⟨id, own, change, keeps⟩ := step
    exact between.marks_step keeps

theorem Exclusive.steps {tables' : ScheduleTables} (exclusive : Exclusive tables) (consistent : Consistent tables)
    (steps : LedgerSteps blind marked tables tables') (sees : ¬ blind) : Exclusive tables' := by
  obtain ⟨middle, written, marked⟩ := steps
  have between : Exclusive middle := by
    cases written with
    | refl => exact exclusive
    | single step => exact exclusive.step consistent step sees
  cases marked with
  | refl => exact between
  | single step =>
    obtain ⟨id, own, change, keeps⟩ := step
    exact between.marks_step fun row => ⟨(keeps row).1, (keeps row).2.1⟩

theorem recordTrigger_absent {outcome : TriggerOutcome} {runId : Option RunId} (absent : tables.trigger? id scheduledFor = none) :
    recordTrigger tables id scheduledFor outcome runId = tables.addTrigger ⟨id, scheduledFor, outcome, runId⟩ := by
  unfold recordTrigger
  rw [trigger?_none.mp absent]
  rfl

/-- A trigger that has a row is left alone, and any other one gets its row. -/
theorem handleTrigger_step (blind : Prop) (member : schedule ∈ tables.schedules) :
    (handleTrigger tables schedule scheduledFor).2 = tables ∧ (tables.trigger? schedule.id scheduledFor).isSome ∨
      LedgerStep blind tables (handleTrigger tables schedule scheduledFor).2 ∧
        ∀ id instant, ((handleTrigger tables schedule scheduledFor).2.trigger? id instant).isSome ↔
          (tables.trigger? id instant).isSome ∨ id = schedule.id ∧ instant = scheduledFor := by
  cases found : tables.trigger? schedule.id scheduledFor with
  | some trigger =>
    have known : (!(tables.rowsFor schedule.id scheduledFor).isEmpty) = true := by
      rw [Bool.not_eq_true', Bool.eq_false_iff]
      intro empty
      rw [trigger?_none.mpr (List.isEmpty_iff.mp empty)] at found
      cases found
    refine .inl ⟨?_, rfl⟩
    unfold handleTrigger
    rw [if_pos known]
  | none =>
    refine .inr ?_
    have unknown : ¬ (!(tables.rowsFor schedule.id scheduledFor).isEmpty) = true := by
      rw [trigger?_none.mp found]
      decide
    unfold handleTrigger
    rw [if_neg unknown]
    split
    · next free =>
        have free' : schedule.overlapPolicy = .allowAll ∨ tables.openRuns schedule.id = [] := by
          refine free.imp id fun none' => ?_
          unfold ScheduleTables.hasOpenRun at none'
          rwa [Bool.not_eq_false', List.isEmpty_iff] at none'
        have step : LedgerStep blind tables _ := .starts schedule scheduledFor member found free'
        have absent : (startRun tables schedule scheduledFor).2.trigger? schedule.id scheduledFor = none := found
        have recorded : recordTrigger (startRun tables schedule scheduledFor).2 schedule.id scheduledFor .started
            (some (startRun tables schedule scheduledFor).1) = _ := recordTrigger_absent absent
        dsimp only
        rw [recorded]
        exact ⟨step, fun id instant => addTrigger_handled absent⟩
    · split
      · next policy =>
          have step : LedgerStep blind tables _ := .buffers schedule scheduledFor member found policy
          have absent : (replaceBuffered tables schedule scheduledFor).trigger? schedule.id scheduledFor = none :=
            replaceBuffered_absent found
          dsimp only
          rw [recordTrigger_absent absent]
          refine ⟨step, fun id instant => (addTrigger_handled absent).trans ?_⟩
          rw [replaceBuffered_handled]
      · rw [recordTrigger_absent found]
        exact ⟨.skips schedule scheduledFor member found, fun id instant => addTrigger_handled found⟩

/-- After a trigger was handled it has a row, and no other row is added. -/
theorem handleTrigger_handled (member : schedule ∈ tables.schedules) {instant : Int} :
    ((handleTrigger tables schedule scheduledFor).2.trigger? id instant).isSome ↔
      (tables.trigger? id instant).isSome ∨ id = schedule.id ∧ instant = scheduledFor := by
  rcases handleTrigger_step False member with ⟨same, known⟩ | ⟨-, rows⟩
  · rw [same]
    refine ⟨.inl, fun either => either.elim (fun row => row) ?_⟩
    rintro ⟨rfl, rfl⟩
    exact known
  · exact rows id instant

theorem firstRow_mem {instant : ScheduleRow → Option Int} {rows : List ScheduleRow} {row : ScheduleRow}
    (first : firstRow instant rows = some row) : row ∈ rows := by
  unfold firstRow orderRows at first
  exact (List.perm_insertionSort _ rows).mem_iff.mp (List.mem_of_head? first)

theorem schedule?_some {row : ScheduleRow} (found : tables.schedule? id = some row) : row ∈ tables.schedules ∧ row.id = id :=
  ⟨List.mem_of_find?_eq_some found, by simpa using List.find?_some found⟩

/-- The schedule that is selected waits as it stands, and a row of the snapshot with its id had no open run. -/
theorem selectBuffered_some {snapshot : ScheduleTables} (selected : selectBuffered snapshot tables queueName locked = some schedule) :
    schedule ∈ tables.schedules ∧ schedule.waits queueName = true ∧ snapshot.openRuns schedule.id = [] := by
  obtain ⟨row, listed, taken⟩ := List.exists_of_findSome?_eq_some selected
  unfold orderRows at listed
  obtain ⟨-, able⟩ := List.mem_filter.mp ((List.perm_insertionSort _ _).mem_iff.mp listed)
  simp only [Bool.and_eq_true, Bool.not_eq_true'] at able
  have free := able.2
  unfold ScheduleTables.hasOpenRun at free
  rw [Bool.not_eq_false', List.isEmpty_iff] at free
  split at taken
  · cases taken
  · obtain ⟨found, waits⟩ := Option.filter_eq_some_iff.mp taken
    obtain ⟨member, own⟩ := schedule?_some found
    rw [← own] at free
    exact ⟨member, waits, free⟩

theorem drainNextBuffer_step {snapshot : ScheduleTables} (sees : blind ∨
      ∀ schedule, selectBuffered snapshot tables queueName locked = some schedule → tables.openRuns schedule.id = []) :
    (drainNextBuffer snapshot tables queueName locked).2 = tables ∨
      LedgerStep blind tables (drainNextBuffer snapshot tables queueName locked).2 := by
  unfold drainNextBuffer
  cases selected : selectBuffered snapshot tables queueName locked with
  | none => exact .inl rfl
  | some schedule =>
    obtain ⟨member, waits, -⟩ := selectBuffered_some selected
    unfold ScheduleRow.waits at waits
    simp only [Bool.and_eq_true, beq_iff_eq] at waits
    obtain ⟨⟨active, waiting⟩, -⟩ := waits
    cases buffered : schedule.bufferedFor with
    | none =>
      rw [buffered] at waiting
      cases waiting
    | some scheduledFor =>
      dsimp only
      rw [buffered]
      exact .inr (.drains schedule scheduledFor member active buffered (sees.imp id fun free => free schedule selected))

theorem handleTrigger_steps (member : schedule ∈ tables.schedules) :
    Relation.ReflGen (LedgerStep blind) tables (handleTrigger tables schedule scheduledFor).2 := by
  rcases handleTrigger_step blind member with ⟨same, -⟩ | ⟨step, -⟩
  · rw [same]
  · exact .single step

theorem fireSchedule_steps (member : schedule ∈ tables.schedules) :
    LedgerSteps blind (· = schedule.id) tables (fireSchedule zones tables schedule now).2 := by
  unfold fireSchedule
  split
  · refine .marks .refl ?_ _ fun _ => ?_
    · rfl
    · exact ⟨rfl, rfl, rfl⟩
  · exact .refl
  · next parsed instant _ =>
      have handled : Relation.ReflGen (LedgerStep blind) tables
          (if instant ≤ now then handleTrigger tables schedule instant else (none, tables)).2 := by
        split
        · exact handleTrigger_steps member
        · exact .refl
      generalize (if instant ≤ now then handleTrigger tables schedule instant else (none, tables)) = outcome at handled
      dsimp only
      split
      · refine .marks handled ?_ _ fun _ => ?_
        · rfl
        · exact ⟨rfl, rfl, rfl⟩
      · exact .refl
      · refine .marks handled ?_ _ fun _ => ?_
        · rfl
        · exact ⟨rfl, rfl, rfl⟩

theorem selectDue_some (selected : selectDue tables queueName locked now = some schedule) :
    schedule ∈ tables.schedules ∧ schedule.state = .active ∧ ∃ due, schedule.nextFireAt = some due ∧ due ≤ now := by
  obtain ⟨member, able⟩ := List.mem_filter.mp (firstRow_mem selected)
  simp only [Bool.and_eq_true, beq_iff_eq, Bool.not_eq_true'] at able
  obtain ⟨⟨⟨active, due⟩, -⟩, -⟩ := able
  refine ⟨member, active, ?_⟩
  cases instant : schedule.nextFireAt with
  | none =>
    rw [instant] at due
    cases due
  | some due' =>
    rw [instant] at due
    exact ⟨due', rfl, of_decide_eq_true due⟩

theorem backfillTrigger_steps : LedgerSteps blind marked tables (backfillTrigger tables id scheduledFor) := by
  unfold backfillTrigger
  split
  · exact .refl
  · next found => exact ⟨_, handleTrigger_steps (schedule?_some found).1, .refl⟩

theorem resume_steps : LedgerSteps blind (· = id) tables (resume zones tables id now) := by
  unfold resume
  split
  · exact .refl
  · split
    · refine .marks .refl ?_ _ fun _ => ?_
      · rfl
      · exact ⟨rfl, rfl, rfl⟩
    · exact .refl
    · refine .marks .refl ?_ _ fun _ => ?_
      · rfl
      · exact ⟨rfl, rfl, rfl⟩

theorem createSchedule_steps {input : CreateScheduleInput} {startAt : Int} :
    LedgerSteps blind marked tables (createSchedule zones tables queueName input startAt) := by
  unfold createSchedule
  split
  · exact .refl
  · split
    · exact .refl
    · exact .single (.opens _ rfl rfl)

/-- The schedule that a tick fires next. -/
def World.selected (world : World) (manager : Nat) (locked : ScheduleId → Bool) (now : Int) : Option ScheduleRow :=
  selectDue world.tables (world.managers manager).queueName locked now

/-- The schedules whose columns an operation sets, apart from their buffered triggers. -/
def ScheduleOp.Marks (world : World) : ScheduleOp → ScheduleId → Prop
  | .fires manager locked, id => ∃ now schedule, (world.managers manager).ticking = some now ∧
      world.selected manager locked now = some schedule ∧ id = schedule.id
  | .pauses other, id => id = other
  | .resumes _ other _, id => id = other
  | _, _ => False

/-- When a drain holds the row of the schedule that it takes, the schedule still has no open run, as in
the snapshot that the drain looks at. Other operations look at the tables as they are. -/
def ScheduleOp.Current (world : World) : ScheduleOp → Prop
  | .drains manager locked => ∀ snapshot schedule, (world.managers manager).looking = some snapshot →
      selectBuffered snapshot world.tables (world.managers manager).queueName locked = some schedule →
        world.tables.openRuns schedule.id = []
  | _ => True

/-- What any operation does to the tables. -/
theorem ScheduleOp.run_steps (op : ScheduleOp) (world : World) :
    LedgerSteps (¬ op.Current world) (op.Marks world) world.tables (op.run zones world).tables := by
  cases op with
  | creates manager input startAt reading => exact createSchedule_steps
  | begins manager reading => exact .refl
  | looks manager =>
    simp only [ScheduleOp.run]
    split <;> exact .refl
  | drains manager locked =>
    simp only [ScheduleOp.run]
    split
    · next snapshot looking =>
        have sees : ¬ ScheduleOp.Current world (.drains manager locked) ∨ ∀ schedule, selectBuffered snapshot world.tables
            (world.managers manager).queueName locked = some schedule → world.tables.openRuns schedule.id = [] := by
          by_cases current : ScheduleOp.Current world (.drains manager locked)
          · exact .inr fun schedule selected => current snapshot schedule looking selected
          · exact .inl current
        rcases drainNextBuffer_step sees with same | step
        · dsimp only
          rw [same]
          exact .refl
        · exact .single step
    · exact .refl
  | fires manager locked =>
    simp only [ScheduleOp.run]
    split
    · next now ticking =>
        unfold fireNextDue
        split
        · exact .refl
        · next schedule selected =>
            obtain ⟨middle, written, marked⟩ := fireSchedule_steps (selectDue_some selected).1
            refine ⟨middle, written, marked.mono ?_⟩
            rintro _ _ ⟨id, rfl, change, keeps⟩
            exact .marks _ ⟨now, schedule, ticking, selected, rfl⟩ change keeps
    · exact .refl
  | ends manager => exact .refl
  | restarts manager queueName => exact .refl
  | backfills caller id from' to' =>
    simp only [ScheduleOp.run]
    split <;> exact .refl
  | handles caller =>
    simp only [ScheduleOp.run]
    split
    · exact backfillTrigger_steps
    · exact .refl
  | abandons caller => exact .refl
  | pauses id =>
    refine .marks .refl ?_ _ fun _ => ?_
    · rfl
    · exact ⟨rfl, rfl, rfl⟩
  | resumes manager id reading => exact resume_steps
  | closes runId status => exact .single (.closes runId status)
  | continues runId input => exact .single (.continues runId input)
  | startsOther run => exact .single (.creates run)

end Transactions

section Runs

variable {zones : ZoneTable} {allowed : ScheduleOp → World → Prop} {start world : World}

/-- What the clocks serve was shown by one, and a tick works with what its clock served. -/
structure Clocked (world : World) : Prop where
  highWater : ∀ manager high, (world.managers manager).highWater = some high → high ∈ world.readings
  ticking : ∀ manager now, (world.managers manager).ticking = some now → now ∈ world.ticks
  ticks : ∀ now ∈ world.ticks, now ∈ world.readings

theorem Clocked.reads (clocked : Clocked world) (manager : Nat) (reading : Int) :
    ((world.managers manager).now reading).1 ∈ reading :: world.readings ∧
      ((world.managers manager).now reading).2.ticking = (world.managers manager).ticking ∧
      ∀ high, ((world.managers manager).now reading).2.highWater = some high → high ∈ reading :: world.readings := by
  unfold Manager.now
  split
  · next high served =>
      split
      · refine ⟨List.mem_cons_of_mem _ (clocked.highWater manager high served), rfl, fun high' same => ?_⟩
        exact List.mem_cons_of_mem _ (clocked.highWater manager high' same)
      · refine ⟨List.mem_cons_self, rfl, fun high' same => ?_⟩
        cases same
        exact List.mem_cons_self
  · refine ⟨List.mem_cons_self, rfl, fun high' same => ?_⟩
    cases same
    exact List.mem_cons_self

/-- One manager is changed, with one more reading. -/
theorem Clocked.manages (clocked : Clocked world) (manager : Nat) (state : Manager) {readings ticks : List Int}
    (highWater : ∀ high, state.highWater = some high → high ∈ readings)
    (ticking : ∀ now, state.ticking = some now → now ∈ ticks) (more : ∀ reading ∈ world.readings, reading ∈ readings)
    (later : ∀ now ∈ world.ticks, now ∈ ticks) (served : ∀ now ∈ ticks, now ∈ readings) (tables : ScheduleTables) :
    Clocked { world.withManager manager state with tables := tables, readings := readings, ticks := ticks } := by
  refine ⟨fun other high at' => ?_, fun other now at' => ?_, served⟩
  · simp only [World.withManager, Function.update_apply] at at'
    split at at'
    · exact highWater high at'
    · exact more high (clocked.highWater other high at')
  · simp only [World.withManager, Function.update_apply] at at'
    split at at'
    · exact ticking now at'
    · exact later now (clocked.ticking other now at')

theorem Clocked.run (clocked : Clocked world) (op : ScheduleOp) : Clocked (op.run zones world) := by
  have unread (tables : ScheduleTables) (backfills : Nat → Option (ScheduleId × List Int)) :
      Clocked { world with tables := tables, backfills := backfills } :=
    ⟨clocked.highWater, clocked.ticking, clocked.ticks⟩
  have more (reading : Int) : ∀ other ∈ world.readings, other ∈ reading :: world.readings :=
    fun _ => List.mem_cons_of_mem _
  cases op with
  | creates manager input startAt reading =>
    obtain ⟨-, same, high⟩ := clocked.reads manager reading
    exact clocked.manages manager _ high (fun now at' => clocked.ticking manager now (same ▸ at')) (more reading)
      (fun _ same => same) (fun now member => more reading now (clocked.ticks now member)) _
  | begins manager reading =>
    obtain ⟨served, -, high⟩ := clocked.reads manager reading
    refine clocked.manages manager { ((world.managers manager).now reading).2 with
      ticking := some ((world.managers manager).now reading).1 } high (fun now at' => ?_) (more reading)
      (fun _ => List.mem_cons_of_mem _) (fun now member => ?_) _
    · cases at'
      exact List.mem_cons_self
    · rcases List.mem_cons.mp member with rfl | before
      · exact served
      · exact more reading now (clocked.ticks now before)
  | looks manager =>
    simp only [ScheduleOp.run]
    split
    · exact clocked.manages manager { world.managers manager with looking := some world.tables } (clocked.highWater manager)
        (clocked.ticking manager) (fun _ => id) (fun _ => id) clocked.ticks _
    · exact clocked
  | drains manager locked =>
    simp only [ScheduleOp.run]
    split
    · exact clocked.manages manager { world.managers manager with looking := none } (clocked.highWater manager)
        (clocked.ticking manager) (fun _ => id) (fun _ => id) clocked.ticks _
    · exact clocked
  | fires manager locked =>
    simp only [ScheduleOp.run]
    split
    · exact unread _ _
    · exact clocked
  | ends manager =>
    exact clocked.manages manager { world.managers manager with ticking := none, looking := none } (clocked.highWater manager)
      (fun _ at' => nomatch at') (fun _ => id) (fun _ => id) clocked.ticks _
  | restarts manager queueName =>
    exact clocked.manages manager ⟨queueName, none, none, none⟩ (fun _ at' => nomatch at') (fun _ at' => nomatch at')
      (fun _ => id) (fun _ => id) clocked.ticks _
  | backfills caller id from' to' =>
    simp only [ScheduleOp.run]
    split
    · exact unread _ _
    · exact clocked
  | handles caller =>
    simp only [ScheduleOp.run]
    split
    · exact unread _ _
    · exact clocked
  | abandons caller => exact unread _ _
  | pauses id => exact unread _ _
  | resumes manager id reading =>
    obtain ⟨-, same, high⟩ := clocked.reads manager reading
    exact clocked.manages manager _ high (fun now at' => clocked.ticking manager now (same ▸ at')) (more reading)
      (fun _ same => same) (fun now member => more reading now (clocked.ticks now member)) _
  | closes runId status => exact unread _ _
  | continues runId input => exact unread _ _
  | startsOther run => exact unread _ _

theorem ScheduleRun.clocked (run : ScheduleRun zones allowed start world) (clocked : Clocked start) : Clocked world := by
  induction run with
  | refl => exact clocked
  | step run op met ih => exact ih.run op

/-- Ticks are only ever added to what was worked with. -/
theorem ScheduleOp.run_ticks (op : ScheduleOp) {now : Int} (member : now ∈ world.ticks) : now ∈ (op.run zones world).ticks := by
  cases op with
  | begins manager reading => exact List.mem_cons_of_mem _ member
  | looks manager =>
    simp only [ScheduleOp.run]
    split <;> exact member
  | drains manager locked =>
    simp only [ScheduleOp.run]
    split <;> exact member
  | fires manager locked =>
    simp only [ScheduleOp.run]
    split <;> exact member
  | backfills caller id from' to' =>
    simp only [ScheduleOp.run]
    split <;> exact member
  | handles caller =>
    simp only [ScheduleOp.run]
    split <;> exact member
  | _ => exact member

theorem World.Empty.consistent (empty : start.Empty) : Consistent start.tables := by
  rw [empty.tables]
  constructor <;> simp [ScheduleTables.trigger?]

theorem World.Empty.exclusive (empty : start.Empty) : Exclusive start.tables := by
  rw [empty.tables]
  simp [Exclusive]

theorem World.Empty.clocked (empty : start.Empty) : Clocked start := by
  refine ⟨fun manager high at' => ?_, fun manager now at' => ?_, fun now member => ?_⟩
  · rw [(empty.managers manager).1] at at'
    cases at'
  · rw [(empty.managers manager).2] at at'
    cases at'
  · rw [empty.ticks] at member
    cases member

theorem ScheduleRun.consistent (run : ScheduleRun zones allowed start world) (consistent : Consistent start.tables) :
    Consistent world.tables := by
  induction run with
  | refl => exact consistent
  | step run op met ih => exact ih.steps (op.run_steps _)

theorem ScheduleRun.mono {allowed' : ScheduleOp → World → Prop} (run : ScheduleRun zones allowed start world)
    (more : ∀ op world, allowed op world → allowed' op world) : ScheduleRun zones allowed' start world := by
  induction run with
  | refl => exact .refl
  | step run op met ih => exact .step ih op (more _ _ met)

/-- Where no drain starts a run beside an open one, runs of a schedule stay apart. -/
theorem ScheduleRun.exclusive (run : ScheduleRun zones (fun op world => op.Current world) start world)
    (consistent : Consistent start.tables) (exclusive : Exclusive start.tables) : Exclusive world.tables := by
  induction run with
  | refl => exact exclusive
  | step run op met ih => exact ih.steps (run.consistent consistent) (op.run_steps _) (not_not_intro met)

/-- A trigger that no run was started for. -/
def Unstarted (tables : ScheduleTables) (id : ScheduleId) (scheduledFor : Int) : Prop :=
  ∃ trigger, tables.trigger? id scheduledFor = some trigger ∧ trigger.outcome ≠ .started

/-- No row of the schedule is active. -/
def Inactive (tables : ScheduleTables) (id : ScheduleId) : Prop :=
  ∀ row ∈ tables.schedules, row.id = id → row.state ≠ .active

variable {tables tables' : ScheduleTables} {id : ScheduleId} {scheduledFor : Int}

/-- While a schedule is not active, a write starts no run for a trigger that is in its ledger. -/
theorem LedgerStep.unstarted {blind : Prop} (step : LedgerStep blind tables tables') (inactive : Inactive tables id)
    (unstarted : Unstarted tables id scheduledFor) : Unstarted tables' id scheduledFor := by
  obtain ⟨trigger, found, outcome⟩ := unstarted
  have apart (other : ScheduleId) (instant : Int) (absent : tables.trigger? other instant = none) :
      ¬ (id = other ∧ scheduledFor = instant) := by
    rintro ⟨rfl, rfl⟩
    rw [absent] at found
    cases found
  cases step with
  | starts schedule instant member absent free =>
    refine ⟨trigger, ?_, outcome⟩
    rw [addTrigger_trigger? absent, if_neg (apart _ _ absent)]
    exact found
  | buffers schedule instant member absent policy =>
    unfold Unstarted
    rw [buffers_trigger? absent, if_neg (apart _ _ absent), found]
    split
    · exact ⟨_, rfl, fun same => nomatch same⟩
    · exact ⟨trigger, rfl, outcome⟩
  | skips schedule instant member absent =>
    refine ⟨trigger, ?_, outcome⟩
    rw [addTrigger_trigger? absent, if_neg (apart _ _ absent)]
    exact found
  | drains schedule instant member active waiting free =>
    refine ⟨trigger, ?_, outcome⟩
    change (ScheduleTables.updateTrigger _ schedule.id instant _).trigger? id scheduledFor = _
    rw [updateTrigger_trigger?, if_neg fun both => inactive schedule member both.1.symm active]
    · exact found
    · exact fun _ => rfl
  | opens row numbered unbuffered => exact ⟨trigger, found, outcome⟩
  | closes runId status => exact ⟨trigger, found, outcome⟩
  | continues runId input =>
    refine ⟨trigger, ?_, outcome⟩
    unfold continueRun
    split <;> exact found
  | creates run => exact ⟨trigger, found, outcome⟩

theorem LedgerSteps.unstarted {blind : Prop} {marked : ScheduleId → Prop}
    (steps : LedgerSteps blind marked tables tables') (inactive : Inactive tables id)
    (unstarted : Unstarted tables id scheduledFor) : Unstarted tables' id scheduledFor := by
  obtain ⟨middle, written, marked⟩ := steps
  have between : Unstarted middle id scheduledFor := by
    cases written with
    | refl => exact unstarted
    | single step => exact step.unstarted inactive unstarted
  cases marked with
  | refl => exact between
  | single step =>
    obtain ⟨id, own, change, keeps⟩ := step
    exact between

/-- The rows of the ledger that wait for a run to end. -/
def ScheduleTables.bufferedRows (tables : ScheduleTables) (id : ScheduleId) : List TriggerRow :=
  tables.triggers.filter fun row => row.scheduleId == id && row.outcome == .buffered

/-- The ledger holds one buffered row of a schedule, at the instant that the schedule holds. -/
theorem Consistent.bufferedRows (consistent : Consistent tables) {row : ScheduleRow} (member : row ∈ tables.schedules) :
    (tables.bufferedRows row.id).map TriggerRow.scheduledFor = row.bufferedFor.toList := by
  have listed (trigger : TriggerRow) (inside : trigger ∈ tables.bufferedRows row.id) :
      trigger ∈ tables.triggers ∧ trigger.scheduleId = row.id ∧ row.bufferedFor = some trigger.scheduledFor := by
    obtain ⟨stored, able⟩ := List.mem_filter.mp inside
    simp only [Bool.and_eq_true, beq_iff_eq] at able
    have found := trigger?_mem consistent.keys stored
    rw [able.1] at found
    exact ⟨stored, able.1, (consistent.buffered row member _).mpr ⟨trigger, found, able.2⟩⟩
  cases waiting : row.bufferedFor with
  | none =>
    rw [Option.toList_none, List.map_eq_nil_iff]
    refine List.eq_nil_iff_forall_not_mem.mpr fun trigger inside => ?_
    rw [waiting] at listed
    exact nomatch (listed trigger inside).2.2
  | some scheduledFor =>
    obtain ⟨trigger, found, outcome⟩ := (consistent.buffered row member scheduledFor).mp waiting
    obtain ⟨stored, own, at'⟩ := trigger?_some found
    have inside : trigger ∈ tables.bufferedRows row.id := List.mem_filter.mpr ⟨stored, by simp [own, outcome]⟩
    have nodup : (tables.bufferedRows row.id).Nodup := consistent.keys.of_map.filter _
    have only : (tables.bufferedRows row.id) = [trigger] := by
      refine List.perm_singleton.mp ((List.perm_ext_iff_of_nodup nodup (List.nodup_singleton _)).mpr fun other => ?_)
      rw [List.mem_singleton]
      refine ⟨fun inside' => ?_, fun same => same ▸ inside⟩
      obtain ⟨stored', own', waiting'⟩ := listed other inside'
      rw [waiting] at waiting'
      exact List.inj_on_of_nodup_map consistent.keys stored' stored
        (Prod.ext (own'.trans own.symm) ((Option.some.inj waiting').symm.trans at'.symm))
    rw [only, List.map_singleton, at', Option.toList_some]

/-- In every state that operations of the managers, of backfills and of the engine reach: the buffered
trigger of a schedule is the one that its ledger holds, every started trigger has its own run, and a
schedule that is not active starts none of its triggers until it is active again. Where no drain takes a
schedule for which a run was started since the drain looked, runs of a schedule overlap only where its
policy lets them. -/
theorem overlap_invariant (empty : start.Empty) : (∀ world, ScheduleRun zones (fun op world => op.Current world) start world →
      ∀ row ∈ world.tables.schedules, row.overlapPolicy ≠ .allowAll → (world.tables.openRuns row.id).length ≤ 1) ∧
    ∀ world, ScheduleRun zones (fun _ _ => True) start world → (∀ row ∈ world.tables.schedules,
        (world.tables.bufferedRows row.id).map TriggerRow.scheduledFor = row.bufferedFor.toList) ∧
      (∀ trigger ∈ world.tables.triggers, trigger.outcome = .started ↔ trigger.runId.isSome) ∧
      (∀ trigger ∈ world.tables.triggers, ∀ runId, trigger.runId = some runId →
        (∃ run ∈ world.tables.runs, run.id = runId ∧ run.scheduleId = some trigger.scheduleId) ∧
        (∃ task ∈ world.tables.tasks, task.runId = runId ∧ task.key = trigger.key) ∧
        ∀ other ∈ world.tables.triggers, other.runId = some runId → other = trigger) ∧
      ∀ id scheduledFor later, Unstarted world.tables id scheduledFor → Inactive world.tables id →
        ScheduleRun zones (fun op world => Inactive (op.run zones world).tables id) world later →
          ∀ op, Unstarted (ScheduleOp.run zones later op).tables id scheduledFor := by
  refine ⟨fun world run => run.exclusive empty.consistent empty.exclusive, fun world run => ?_⟩
  have consistent := run.consistent empty.consistent
  refine ⟨fun row member => consistent.bufferedRows member, fun trigger member => ?_,
    fun trigger member runId ran => ?_, fun id scheduledFor later unstarted inactive paused op => ?_⟩
  · exact consistent.started _ _ trigger (trigger?_mem consistent.keys member)
  · obtain ⟨task, listed, key, own⟩ :=
      consistent.starts _ _ trigger runId (trigger?_mem consistent.keys member) ran
    obtain ⟨run, exists', same, scheduled⟩ := consistent.taskRun task listed
    have scheduleId : task.scheduleId = trigger.scheduleId := congrArg Prod.fst key
    refine ⟨⟨run, exists', same.trans own, scheduleId ▸ scheduled⟩, ⟨task, listed, own, key⟩,
      fun other member' ran' => ?_⟩
    obtain ⟨task', listed', key', own'⟩ :=
      consistent.starts _ _ other runId (trigger?_mem consistent.keys member') ran'
    have sameTask : task' = task := List.inj_on_of_nodup_map consistent.taskRuns listed' listed (own'.trans own.symm)
    rw [sameTask] at key'
    exact List.inj_on_of_nodup_map consistent.keys member' member (key'.symm.trans key)
  · have kept : Unstarted later.tables id scheduledFor ∧ Inactive later.tables id := by
      induction paused with
      | refl => exact ⟨unstarted, inactive⟩
      | step paused op met ih => exact ⟨(op.run_steps _).unstarted ih.2 ih.1, met⟩
    exact (op.run_steps later).unstarted kept.2 kept.1

end Runs

end DurableExecution.Schedules

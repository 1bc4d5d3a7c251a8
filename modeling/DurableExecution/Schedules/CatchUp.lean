import DurableExecution.Schedules.ScheduleRuns

/-
This file follows the stored fire time of one active schedule: which instants it passes, and
which of them have a row in the ledger.
-/

namespace DurableExecution.Schedules

open DurableExecution.Order

section Frames

variable {tables tables' : ScheduleTables} {id other : ScheduleId} {scheduledFor now : Int} {row schedule : ScheduleRow}

/-- A schedule apart from its buffered trigger. -/
def ScheduleRow.timing (row : ScheduleRow) : ScheduleRow := { row with bufferedFor := none }

theorem updateSchedule_schedule? {change : ScheduleRow → ScheduleRow} (keeps : ∀ row, (change row).id = row.id) :
    (tables.updateSchedule other change).schedule? id =
      if id = other then (tables.schedule? id).map change else tables.schedule? id := by
  have named (row : ScheduleRow) : ((if row.id = other then change row else row).id == id) = (row.id == id) := by
    split
    · rw [keeps]
    · rfl
  unfold ScheduleTables.updateSchedule ScheduleTables.schedule?
  simp only [List.find?_map, Function.comp_def, named]
  cases found : tables.schedules.find? fun row => row.id == id with
  | none => simp
  | some row =>
    have own : row.id = id := by simpa using List.find?_some found
    simp only [Option.map_some, own]
    split <;> rfl

/-- While no id occurs twice, a schedule is found by its id. -/
theorem Consistent.schedule? (consistent : Consistent tables) (member : row ∈ tables.schedules) : tables.schedule? row.id = some row := by
  cases found : tables.schedule? row.id with
  | none =>
    have absent := List.find?_eq_none.mp found row member
    simp at absent
  | some other =>
    obtain ⟨member', own⟩ := schedule?_some found
    rw [List.inj_on_of_nodup_map consistent.schedules member' member own]

/-- A write to the ledger keeps the columns of a schedule, apart from its buffered trigger. -/
theorem LedgerStep.timing {blind : Prop} (step : LedgerStep blind tables tables') (found : tables.schedule? id = some row) :
    ∃ row', tables'.schedule? id = some row' ∧ row'.timing = row.timing := by
  have buffering (change : ScheduleRow → ScheduleRow) (other : ScheduleId)
      (keeps : ∀ row, (change row).timing = row.timing ∧ (change row).id = row.id) :
      ∃ row', (tables.updateSchedule other change).schedule? id = some row' ∧ row'.timing = row.timing := by
    rw [updateSchedule_schedule? fun row => (keeps row).2, found]
    split
    · exact ⟨_, rfl, (keeps row).1⟩
    · exact ⟨row, rfl, rfl⟩
  cases step with
  | starts schedule instant member absent free => exact ⟨row, found, rfl⟩
  | buffers schedule instant member absent policy =>
    obtain ⟨triggers, frame, -⟩ := @buffers_frame tables instant schedule
    rw [frame]
    exact buffering _ schedule.id fun _ => ⟨rfl, rfl⟩
  | skips schedule instant member absent => exact ⟨row, found, rfl⟩
  | drains schedule instant member active waiting free => exact buffering _ schedule.id fun _ => ⟨rfl, rfl⟩
  | opens new numbered unbuffered =>
    refine ⟨row, ?_, rfl⟩
    change (tables.schedules ++ [new]).find? _ = _
    rw [List.find?_append]
    unfold ScheduleTables.schedule? at found
    rw [found]
    rfl
  | closes runId status => exact ⟨row, found, rfl⟩
  | continues runId input =>
    refine ⟨row, ?_, rfl⟩
    unfold continueRun
    split <;> exact found
  | creates run => exact ⟨row, found, rfl⟩

theorem LedgerSteps.timing {blind : Prop} {marked : ScheduleId → Prop} (steps : LedgerSteps blind marked tables tables')
    (unmarked : ¬ marked id) (found : tables.schedule? id = some row) :
    ∃ row', tables'.schedule? id = some row' ∧ row'.timing = row.timing := by
  obtain ⟨middle, written, marked'⟩ := steps
  obtain ⟨between, found', same⟩ : ∃ row', middle.schedule? id = some row' ∧ row'.timing = row.timing := by
    cases written with
    | refl => exact ⟨row, found, rfl⟩
    | single step => exact step.timing found
  cases marked' with
  | refl => exact ⟨between, found', same⟩
  | single step =>
    obtain ⟨id', own, change, keeps⟩ := step
    refine ⟨between, ?_, same⟩
    rw [updateSchedule_schedule? fun row => (keeps row).1, if_neg fun equal => unmarked (by rw [equal]; exact own)]
    exact found'

/-- A row of the ledger stays. -/
theorem LedgerStep.handled {blind : Prop} (step : LedgerStep blind tables tables') (known : (tables.trigger? id scheduledFor).isSome) :
    (tables'.trigger? id scheduledFor).isSome := by
  cases step with
  | starts schedule instant member absent free =>
    rw [addTrigger_trigger? absent]
    split
    · rfl
    · exact known
  | buffers schedule instant member absent policy =>
    rw [buffers_trigger? absent]
    split
    · rfl
    · split
      · rw [Option.isSome_map]
        exact known
      · exact known
  | skips schedule instant member absent =>
    rw [addTrigger_trigger? absent]
    split
    · rfl
    · exact known
  | drains schedule instant member active waiting free =>
    change ((ScheduleTables.updateTrigger _ schedule.id instant _).trigger? id scheduledFor).isSome
    rw [updateTrigger_trigger?]
    · split
      · rw [Option.isSome_map]
        exact known
      · exact known
    · exact fun _ => rfl
  | opens row numbered unbuffered => exact known
  | closes runId status => exact known
  | continues runId input =>
    unfold continueRun
    split <;> exact known
  | creates run => exact known

theorem LedgerSteps.handled {blind : Prop} {marked : ScheduleId → Prop} (steps : LedgerSteps blind marked tables tables')
    (known : (tables.trigger? id scheduledFor).isSome) : (tables'.trigger? id scheduledFor).isSome := by
  obtain ⟨middle, written, marked'⟩ := steps
  have between : (middle.trigger? id scheduledFor).isSome := by
    cases written with
    | refl => exact known
    | single step => exact step.handled known
  cases marked' with
  | refl => exact between
  | single step =>
    obtain ⟨id', own, change, keeps⟩ := step
    exact between

end Frames

/-- An active schedule with what a tick reads of it: its parsed expression, its catch-up policy
and the instant it fires next. -/
structure Serves (zones : ZoneTable) (parsed : CronSchedule) (policy : CatchUpPolicy) (window : Option Nat)
    (id : ScheduleId) (next : Int) (tables : ScheduleTables) : Prop where
  row : ∃ row, tables.schedule? id = some row ∧ row.state = .active ∧ row.catchUpPolicy = policy ∧
    row.catchUpWindowMs = window ∧ row.nextFireAt = some next ∧
    parseCron zones row.cronExpression row.timeZone = .ok parsed

/-- An operation that leaves a schedule active, and does not resume it. -/
def Serving (zones : ZoneTable) (id : ScheduleId) (op : ScheduleOp) (world : World) : Prop :=
  (∀ manager reading, op ≠ .resumes manager id reading) ∧
    ∃ row, (op.run zones world).tables.schedule? id = some row ∧ row.state = .active

/-- What `catchUpInstant` computes for a schedule. -/
def caughtUp (zones : ZoneTable) (parsed : CronSchedule) (policy : CatchUpPolicy) (window : Option Nat)
    (next now : Int) : Except CronError Int :=
  match policy with
  | .latestOnly => latestInstantUntil zones parsed next now
  | .all =>
    match window with
    | none => .ok next
    | some window => if next < now - window then nextCronTime zones parsed (now - window - 1) else .ok next

section Serving

variable {zones : ZoneTable} {parsed : CronSchedule} {policy : CatchUpPolicy} {window : Option Nat} {id : ScheduleId}
  {next now : Int} {tables : ScheduleTables} {schedule : ScheduleRow} {world : World} {op : ScheduleOp}

/-- A tick that fires a schedule either changes nothing, or handles the instant that it catches up
with, if that is not in the future, and goes on to the next match after it. -/
theorem Serves.fires (serves : Serves zones parsed policy window id next tables) (found : tables.schedule? id = some schedule)
    (active : ∃ row, (fireSchedule zones tables schedule now).2.schedule? id = some row ∧ row.state = .active) :
    (∃ error, fireSchedule zones tables schedule now = (.error error, tables)) ∨
      ∃ instant next', caughtUp zones parsed policy window next now = .ok instant ∧ nextCronTime zones parsed instant = .ok next' ∧
        Serves zones parsed policy window id next' (fireSchedule zones tables schedule now).2 ∧
        ∀ id' scheduledFor, ((fireSchedule zones tables schedule now).2.trigger? id' scheduledFor).isSome ↔
          (tables.trigger? id' scheduledFor).isSome ∨ id' = id ∧ scheduledFor = instant ∧ instant ≤ now := by
  obtain ⟨row, found', running, rfl, rfl, due, parses⟩ := serves.row
  cases found.symm.trans found'
  obtain ⟨member, own⟩ := schedule?_some found
  have caught : catchUpInstant zones schedule parsed now =
      caughtUp zones parsed schedule.catchUpPolicy schedule.catchUpWindowMs next now := by
    rw [catchUpInstant, due]
    rfl
  have erring (middle : ScheduleTables) (reason : String) (kept : ∃ row, middle.schedule? id = some row)
      (active : ∃ row, (markErrored middle schedule.id reason).schedule? id = some row ∧ row.state = .active) :
      False := by
    obtain ⟨row, at', active⟩ := active
    unfold markErrored at at'
    rw [updateSchedule_schedule?, if_pos own.symm] at at'
    · obtain ⟨old, -, rfl⟩ := Option.map_eq_some_iff.mp at'
      cases active
    · exact fun _ => rfl
  unfold fireSchedule at active ⊢
  simp only [parses, caught, bind, Except.bind, pure, Except.pure] at active ⊢
  cases chosen : caughtUp zones parsed schedule.catchUpPolicy schedule.catchUpWindowMs next now with
  | error error =>
    rw [chosen] at active
    cases error with
    | invalidSchedule message => exact (erring tables message ⟨_, found⟩ active).elim
    | invalidDate | typeError => exact .inl ⟨_, rfl⟩
  | ok instant =>
    rw [chosen] at active
    dsimp only at active ⊢
    have handled : ∃ row', (if instant ≤ now then handleTrigger tables schedule instant else (none, tables)).2.schedule?
        id = some row' ∧ row'.timing = schedule.timing := by
      split
      · have steps : Relation.ReflGen (LedgerStep False) tables (handleTrigger tables schedule instant).2 := handleTrigger_steps member
        have whole : LedgerSteps False (fun _ => False) tables (handleTrigger tables schedule instant).2 := ⟨_, steps, .refl⟩
        exact whole.timing (fun absurd' => absurd') found
      · exact ⟨schedule, found, rfl⟩
    have rows (id' : ScheduleId) (scheduledFor : Int) :
        ((if instant ≤ now then handleTrigger tables schedule instant else (none, tables)).2.trigger? id'
          scheduledFor).isSome ↔ (tables.trigger? id' scheduledFor).isSome ∨
            id' = id ∧ scheduledFor = instant ∧ instant ≤ now := by
      split
      · next past =>
          rw [handleTrigger_handled member, own]
          simp only [past, and_true]
      · next future =>
          simp only [future, and_false, or_false]
    generalize (if instant ≤ now then handleTrigger tables schedule instant else (none, tables)) = outcome
      at active handled rows ⊢
    obtain ⟨row', at', same⟩ := handled
    cases onward : nextCronTime zones parsed instant with
    | error error =>
      rw [onward] at active
      cases error with
      | invalidSchedule message => exact (erring outcome.2 message ⟨_, at'⟩ active).elim
      | invalidDate | typeError => exact .inl ⟨_, rfl⟩
    | ok next' =>
      refine .inr ⟨instant, next', rfl, onward, ⟨⟨{ row' with
        nextFireAt := some next'
        lastFiredAt := if outcome.1.isSome then some instant else row'.lastFiredAt }, ?_, ?_⟩⟩, rows⟩
      · dsimp only
        rw [updateSchedule_schedule?, if_pos own.symm, at']
        · rfl
        · exact fun _ => rfl
      · have state := congrArg ScheduleRow.state same
        have policy' := congrArg ScheduleRow.catchUpPolicy same
        have window' := congrArg ScheduleRow.catchUpWindowMs same
        have expression := congrArg ScheduleRow.cronExpression same
        have timeZone := congrArg ScheduleRow.timeZone same
        simp only [ScheduleRow.timing] at state policy' window' expression timeZone
        refine ⟨state.trans running, policy', window', rfl, ?_⟩
        dsimp only
        rw [expression, timeZone]
        exact parses

/-- What one operation does to a schedule that stays active: it leaves its timing alone, or it is a
tick that fires it. -/
theorem Serves.run (serves : Serves zones parsed policy window id next world.tables)
    (consistent : Consistent world.tables) (serving : Serving zones id op world) :
    Serves zones parsed policy window id next (op.run zones world).tables ∨
      ∃ manager locked now schedule instant next', op = .fires manager locked ∧
        (world.managers manager).ticking = some now ∧ world.selected manager locked now = some schedule ∧
        schedule.id = id ∧ next ≤ now ∧ caughtUp zones parsed policy window next now = .ok instant ∧
        nextCronTime zones parsed instant = .ok next' ∧ Serves zones parsed policy window id next' (op.run zones world).tables ∧
        ∀ id' scheduledFor, ((op.run zones world).tables.trigger? id' scheduledFor).isSome ↔
          (world.tables.trigger? id' scheduledFor).isSome ∨ id' = id ∧ scheduledFor = instant ∧ instant ≤ now := by
  obtain ⟨row, found, running, samePolicy, sameWindow, due, parses⟩ := serves.row
  by_cases marked : op.Marks world id
  · cases op with
    | fires manager locked =>
      obtain ⟨now, schedule, ticking, selected, own⟩ := marked
      obtain ⟨member, -, due', at', past⟩ := selectDue_some selected
      have found' := consistent.schedule? member
      rw [← own] at found'
      cases found.symm.trans found'
      cases due.symm.trans at'
      have fired : (ScheduleOp.run zones world (.fires manager locked)).tables =
          (fireSchedule zones world.tables row now).2 := by
        simp only [ScheduleOp.run, ticking, fireNextDue]
        unfold World.selected at selected
        rw [selected]
      have active := serving.2
      rw [fired] at active ⊢
      rcases serves.fires found active with ⟨_, same⟩ | ⟨instant, next', caught, onward, serves', rows⟩
      · rw [same]
        exact .inl serves
      · exact .inr ⟨manager, locked, now, row, instant, next', rfl, ticking, selected, own.symm, past, caught, onward,
          serves', rows⟩
    | pauses other =>
      obtain rfl : id = other := marked
      obtain ⟨row', at', active⟩ := serving.2
      change (pause world.tables id).schedule? id = some row' at at'
      unfold pause at at'
      rw [updateSchedule_schedule?, if_pos rfl] at at'
      · obtain ⟨old, -, rfl⟩ := Option.map_eq_some_iff.mp at'
        cases active
      · exact fun _ => rfl
    | resumes manager other reading =>
      obtain rfl : id = other := marked
      exact absurd rfl (serving.1 manager reading)
    | _ => exact marked.elim
  · obtain ⟨row', found', same⟩ := (op.run_steps world).timing marked found
    refine .inl ⟨⟨row', found', ?_⟩⟩
    have state := congrArg ScheduleRow.state same
    have policy' := congrArg ScheduleRow.catchUpPolicy same
    have window' := congrArg ScheduleRow.catchUpWindowMs same
    have nextFireAt := congrArg ScheduleRow.nextFireAt same
    have expression := congrArg ScheduleRow.cronExpression same
    have timeZone := congrArg ScheduleRow.timeZone same
    simp only [ScheduleRow.timing] at state policy' window' nextFireAt expression timeZone
    refine ⟨state.trans running, policy'.trans samePolicy, window'.trans sameWindow, nextFireAt.trans due, ?_⟩
    rw [expression, timeZone]
    exact parses

end Serving

section Passing

variable {zones : ZoneTable} {zone : Zone} {parsed : CronSchedule} {policy : CatchUpPolicy} {window : Option Nat}
  {id : ScheduleId} {first next now instant : Int} {before world : World} {allowed : ScheduleOp → World → Prop}

/-- What holds of the stored fire time of a schedule that stays active holds all along, if a tick
that fires it and every operation that leaves it alone keep it. -/
theorem Serves.along (P : Int → World → Prop) (serves : Serves zones parsed policy window id first before.tables)
    (consistent : Consistent before.tables) (clocked : Clocked before) (holds : P first before)
    (serving : ∀ op world, allowed op world → Serving zones id op world)
    (still : ∀ (op : ScheduleOp) world next, P next world → P next (op.run zones world))
    (fires : ∀ (op : ScheduleOp) world next instant next' manager locked now schedule, allowed op world →
      Consistent world.tables → P next world → op = .fires manager locked → (world.managers manager).ticking = some now →
      world.selected manager locked now = some schedule → schedule.id = id →
      Serves zones parsed policy window id next world.tables → now ∈ world.ticks → next ≤ now →
      caughtUp zones parsed policy window next now = .ok instant → nextCronTime zones parsed instant = .ok next' →
      (instant ≤ now → ((op.run zones world).tables.trigger? id instant).isSome) → P next' (op.run zones world))
    (run : ScheduleRun zones allowed before world) : ∃ next, Serves zones parsed policy window id next world.tables ∧ P next world := by
  induction run with
  | refl => exact ⟨first, serves, holds⟩
  | step run op met ih =>
    obtain ⟨next, serves', holds'⟩ := ih
    have consistent' := run.consistent consistent
    rcases serves'.run consistent' (serving op _ met) with
      same | ⟨manager, locked, now, schedule, instant, next', fired, ticking, selected, own, due, caught, onward,
        serves'', rows⟩
    · exact ⟨next, same, still op _ next holds'⟩
    · refine ⟨next', serves'', fires op _ next instant next' manager locked now schedule met consistent' holds' fired
        ticking selected own serves' ?_ due caught onward fun past => (rows id instant).mpr (.inr ⟨rfl, rfl, past⟩)⟩
      exact (run.clocked clocked).ticking manager now ticking

/-- In a tick that finds the stored fire time before the window, an instant lies in the window. -/
def InstantInWindow (zone : Zone) (parsed : CronSchedule) (window : Nat) (id : ScheduleId) (op : ScheduleOp)
    (world : World) : Prop :=
  ∀ manager locked now schedule next, op = .fires manager locked → (world.managers manager).ticking = some now →
    world.selected manager locked now = some schedule → schedule.id = id → schedule.nextFireAt = some next →
    next < now - window → ∃ instant, parsed.Matches zone instant ∧ now - window ≤ instant ∧ instant ≤ now

/-- The instants from one on and before another have a row, or a tick came after their window. -/
def DropsBefore (zone : Zone) (parsed : CronSchedule) (window : Nat) (id : ScheduleId) (first next : Int)
    (world : World) : Prop :=
  ∀ scheduledFor, parsed.Matches zone scheduledFor → first ≤ scheduledFor → scheduledFor < next →
    (world.tables.trigger? id scheduledFor).isSome ∨ ∃ now ∈ world.ticks, scheduledFor + window < now

/-- A trigger that has a row has exactly one. -/
theorem Consistent.one_row {tables : ScheduleTables} {scheduledFor : Int} (consistent : Consistent tables)
    (handled : (tables.trigger? id scheduledFor).isSome) : (tables.rowsFor id scheduledFor).length = 1 := by
  rw [rowsFor_eq consistent.keys]
  obtain ⟨trigger, found⟩ := Option.isSome_iff_exists.mp handled
  rw [found]
  rfl

/-- A schedule with a window passes an instant without a trigger only in a tick that is later than
the instant and the window. -/
theorem window_drops {start : World} {window : Nat} (empty : start.Empty) (reached : ScheduleRun zones (fun _ _ => True) start before)
    (serves : Serves zones parsed .all (some window) id first before.tables)
    (named : zones parsed.timeZone = some zone) (constant : zone.Constant) (run : ScheduleRun zones
      (fun op world => Serving zones id op world ∧ InstantInWindow zone parsed window id op world) before world) :
    ∃ next, Serves zones parsed .all (some window) id next world.tables ∧
      ∀ scheduledFor, parsed.Matches zone scheduledFor → first ≤ scheduledFor → scheduledFor < next →
        (world.tables.rowsFor id scheduledFor).length = 1 ∨ ∃ now ∈ world.ticks, scheduledFor + window < now := by
  have consistent := reached.consistent empty.consistent
  obtain ⟨next, serves', passed⟩ : ∃ next, Serves zones parsed .all (some window) id next world.tables ∧
      DropsBefore zone parsed window id first next world := by
    refine serves.along (DropsBefore zone parsed window id first) consistent (reached.clocked empty.clocked)
      (fun _ _ lower upper => absurd lower (not_le.mpr upper)) (fun op world met => met.1) ?_ ?_ run
    · intro op world next passed scheduledFor matched lower upper
      exact (passed scheduledFor matched lower upper).imp (op.run_steps world).handled
        fun ⟨now, tick, late⟩ => ⟨now, op.run_ticks tick, late⟩
    · intro op world next instant next' manager locked now schedule met consistent' passed fired ticking selected own
        serves' tick due caught onward row scheduledFor matched lower upper
      by_cases earlier : scheduledFor < next
      · exact (passed scheduledFor matched lower earlier).imp (op.run_steps world).handled
          fun ⟨now, tick, late⟩ => ⟨now, op.run_ticks tick, late⟩
      · have after := nextCronTime_isNext named constant onward
        have notAfter := after.le matched upper
        unfold caughtUp at caught
        dsimp only at caught
        split at caught
        · next missed =>
            -- the tick jumps over what lies before the window, and finds the first instant inside
            have jump := nextCronTime_isNext named constant caught
            obtain ⟨row', found, -, -, -, at', -⟩ := serves'.row
            have found' := consistent'.schedule? (selectDue_some selected).1
            rw [own, found] at found'
            cases found'
            obtain ⟨inside, matches', lower', upper'⟩ :=
              met.2 manager locked now schedule next fired ticking selected own at' missed
            have reached' := jump.first inside (by omega) matches'
            by_cases dropped : scheduledFor < now - window
            · exact .inr ⟨now, op.run_ticks tick, by omega⟩
            · have least := jump.first scheduledFor (by omega) matched
              have same : scheduledFor = instant := le_antisymm notAfter least
              exact .inl (same ▸ row (by omega))
        · cases caught
          have same : scheduledFor = next := by omega
          exact .inl (same ▸ row due)
  have consistent' := run.consistent consistent
  exact ⟨next, serves', fun scheduledFor matched lower upper =>
    (passed scheduledFor matched lower upper).imp_left consistent'.one_row⟩

/-- The latest match that is not after a time. -/
theorem latestInstantUntil_latest (named : zones parsed.timeZone = some zone) (constant : zone.Constant)
    (latest : Int) (matched : parsed.Matches zone latest) (past : latest ≤ now)
    (found : latestInstantUntil zones parsed latest now = .ok instant) : parsed.Matches zone instant ∧ latest ≤ instant ∧ instant ≤ now ∧
      ∀ other, parsed.Matches zone other → other ≤ now → other ≤ instant := by
  induction latest using latestInstantUntil.induct zones parsed now with
  | case1 latest error same =>
    rw [latestInstantUntil, same] at found
    cases found
  | case2 latest next same future =>
    rw [latestInstantUntil, same] at found
    simp only [future, if_true] at found
    cases found
    have isNext := nextCronTime_isNext named constant same
    exact ⟨matched, le_rfl, past, fun other holds notAfter => isNext.le holds (by omega)⟩
  | case3 latest next same due ih =>
    rw [latestInstantUntil, same] at found
    simp only [due, if_false] at found
    have isNext := nextCronTime_isNext named constant same
    obtain ⟨holds, later, notAfter, rest⟩ := ih isNext.holds (not_lt.mp due) found
    exact ⟨holds, le_trans (le_of_lt isNext.later) later, notAfter, rest⟩

/-- All matches from a start on and before an instant have a row. -/
def RowsBefore (zone : Zone) (parsed : CronSchedule) (id : ScheduleId) (start next : Int) (world : World) : Prop :=
  ∀ scheduledFor, start < scheduledFor → scheduledFor < next → parsed.Matches zone scheduledFor →
    (world.tables.trigger? id scheduledFor).isSome

/-- The stored fire time of a schedule is a match, all along. -/
theorem Serves.next_matches (serves : Serves zones parsed policy window id first before.tables)
    (consistent : Consistent before.tables) (clocked : Clocked before) (matched : parsed.Matches zone first)
    (named : zones parsed.timeZone = some zone) (constant : zone.Constant) (run : ScheduleRun zones (Serving zones id) before world) :
    ∃ next, Serves zones parsed policy window id next world.tables ∧ parsed.Matches zone next := by
  refine serves.along (fun next _ => parsed.Matches zone next) consistent clocked matched (fun _ _ met => met)
    (fun _ _ _ holds => holds) ?_ run
  intro op world next instant next' manager locked now schedule _ _ _ _ _ _ _ _ _ _ _ onward _
  exact (nextCronTime_isNext named constant onward).holds

/-- A schedule that catches up with all instants has a row for each one that it has passed. -/
theorem Serves.rows_before {start : Int} (serves : Serves zones parsed .all none id first before.tables)
    (consistent : Consistent before.tables) (clocked : Clocked before)
    (isFirst : NextMatch (parsed.Matches zone) start first) (named : zones parsed.timeZone = some zone)
    (constant : zone.Constant) (run : ScheduleRun zones (Serving zones id) before world) :
    ∃ next, Serves zones parsed .all none id next world.tables ∧ RowsBefore zone parsed id start next world := by
  refine serves.along (RowsBefore zone parsed id start) consistent clocked ?_ (fun _ _ met => met) ?_ ?_ run
  · intro scheduledFor above below matched
    exact absurd matched (isFirst.between above below)
  · intro op world next handled scheduledFor above below matched
    exact (op.run_steps world).handled (handled scheduledFor above below matched)
  · intro op world next instant next' manager locked now schedule _ _ handled _ _ _ _ _ _ due caught onward row
    cases caught
    refine (nextCronTime_isNext named constant onward).handled (fun scheduledFor above below matched => ?_) (row due)
    exact (op.run_steps world).handled (handled scheduledFor above below matched)

/-- What a tick that fires a schedule under `latest_only` makes of it. -/
theorem Serves.fires_latest (serves : Serves zones parsed .latestOnly window id next world.tables)
    (consistent : Consistent world.tables) (matched : parsed.Matches zone next)
    (named : zones parsed.timeZone = some zone) (constant : zone.Constant) {manager : Nat}
    {locked : ScheduleId → Bool} {schedule : ScheduleRow} {trigger : Option ScheduleTrigger}
    (selected : world.selected manager locked now = some schedule) (own : schedule.id = id)
    (committed : (fireSchedule zones world.tables schedule now).1 = .ok trigger)
    (active : ∃ row, (fireSchedule zones world.tables schedule now).2.schedule? id = some row ∧ row.state = .active) :
    ∃ instant next', parsed.Matches zone instant ∧ next ≤ instant ∧ instant ≤ now ∧
      (∀ other, parsed.Matches zone other → other ≤ now → other ≤ instant) ∧
      (∀ id' scheduledFor, ((fireSchedule zones world.tables schedule now).2.trigger? id' scheduledFor).isSome ↔
        (world.tables.trigger? id' scheduledFor).isSome ∨ id' = id ∧ scheduledFor = instant) ∧
      Serves zones parsed .latestOnly window id next' (fireSchedule zones world.tables schedule now).2 ∧
      NextMatch (parsed.Matches zone) now next' := by
  obtain ⟨member, -, due, at', past⟩ := selectDue_some selected
  have found := consistent.schedule? member
  rw [own] at found
  rcases serves.fires found active with ⟨_, failed⟩ | ⟨instant, next', caught, onward, serves', rows⟩
  · rw [failed] at committed
    cases committed
  · obtain ⟨row, found', -, -, -, at'', -⟩ := serves.row
    cases found.symm.trans found'
    cases at'.symm.trans at''
    obtain ⟨holds, later, notAfter, latest⟩ := latestInstantUntil_latest named constant next matched past caught
    have isNext := nextCronTime_isNext named constant onward
    refine ⟨instant, next', holds, later, notAfter, latest, fun id' scheduledFor => ?_, serves', ?_⟩
    · rw [rows]
      simp only [notAfter, and_true]
    · refine ⟨?_, isNext.holds, fun other above matched' => isNext.first other (lt_of_le_of_lt notAfter above) matched'⟩
      by_contra before
      have least := latest next' isNext.holds (not_lt.mp before)
      exact absurd isNext.later (not_lt.mpr least)

/-- What a created schedule looks for first. -/
theorem createSchedule_serves {tables : ScheduleTables} {queueName : String} {input : CreateScheduleInput}
    {startAt : Int} {row : ScheduleRow} (consistent : Consistent tables)
    (created : (createSchedule zones tables queueName input startAt).schedule? tables.nextId = some row)
    (parses : parseCron zones row.cronExpression row.timeZone = .ok parsed) :
    ∃ first, nextCronTime zones parsed startAt = .ok first ∧ Serves zones parsed row.catchUpPolicy row.catchUpWindowMs
      tables.nextId first (createSchedule zones tables queueName input startAt) := by
  have absent : tables.schedule? tables.nextId = none := by
    refine List.find?_eq_none.mpr fun other member same => ?_
    have own : other.id = tables.nextId := by simpa using same
    exact absurd own (Nat.ne_of_lt (consistent.fresh.1 other member))
  have whole := created
  unfold createSchedule at created ⊢
  cases accepted : parseCron zones input.cronExpression input.timeZone with
  | error error =>
    simp only [accepted, bind, Except.bind] at created
    rw [absent] at created
    cases created
  | ok parsed' =>
    cases found : nextCronTime zones parsed' startAt with
    | error error =>
      simp only [accepted, found, bind, Except.bind] at created
      rw [absent] at created
      cases created
    | ok first =>
      simp only [accepted, found, bind, Except.bind, pure, Except.pure] at created ⊢
      split at created
      · rw [absent] at created
        cases created
      · next allowed =>
          rw [if_neg allowed]
          unfold ScheduleTables.schedule? at created absent
          dsimp only at created
          rw [List.find?_append, absent] at created
          simp only [Option.none_or, List.find?_cons, beq_self_eq_true] at created
          cases created
          obtain ⟨timeZone, again⟩ := parseCron_stored accepted
          cases parses.symm.trans again
          refine ⟨first, found, ⟨⟨_, ?_, rfl, rfl, rfl, rfl, parses⟩⟩⟩
          unfold ScheduleTables.schedule?
          dsimp only
          rw [List.find?_append, absent]
          simp only [Option.none_or, List.find?_cons, beq_self_eq_true]

/-- A tick handles no instant before its time. -/
theorem fireSchedule_past {tables : ScheduleTables} {schedule : ScheduleRow} {id' : ScheduleId} {scheduledFor : Int}
    (member : schedule ∈ tables.schedules) (handled : ((fireSchedule zones tables schedule now).2.trigger? id' scheduledFor).isSome) :
    (tables.trigger? id' scheduledFor).isSome ∨ scheduledFor ≤ now := by
  unfold fireSchedule at handled
  split at handled
  · exact .inl handled
  · exact .inl handled
  · next parsed instant _ =>
      have rows : ∀ handled : Bool, ((if instant ≤ now then handleTrigger tables schedule instant
          else (none, tables)).2.trigger? id' scheduledFor).isSome = handled → handled = true →
          (tables.trigger? id' scheduledFor).isSome ∨ scheduledFor ≤ now := by
        intro handled same yes
        rw [yes] at same
        split at same
        · next past =>
            rcases (handleTrigger_handled member).mp same with before | ⟨-, rfl⟩
            · exact .inl before
            · exact .inr past
        · exact .inl same
      generalize (if instant ≤ now then handleTrigger tables schedule instant else (none, tables)) = outcome
        at handled rows
      dsimp only at handled
      split at handled
      · exact rows _ rfl handled
      · exact .inl handled
      · exact rows _ rfl handled

/-- The workflow tasks that were enqueued for an instant of a schedule, each with a run of its own. -/
def ScheduleTables.tasksFor (tables : ScheduleTables) (id : ScheduleId) (scheduledFor : Int) : List ScheduleTask :=
  tables.tasks.filter fun task => task.key = (id, scheduledFor)

theorem Consistent.at_most_once {tables : ScheduleTables} {scheduledFor : Int} (consistent : Consistent tables) :
    (tables.rowsFor id scheduledFor).length ≤ 1 ∧ (tables.tasksFor id scheduledFor).length ≤ 1 := by
  constructor
  · rw [rowsFor_eq consistent.keys]
    cases tables.trigger? id scheduledFor with
    | none => exact Nat.zero_le _
    | some trigger => exact le_rfl
  · have same : ∀ one ∈ tables.tasksFor id scheduledFor, ∀ two ∈ tables.tasksFor id scheduledFor, one = two := by
      intro one first two second
      obtain ⟨listed, key⟩ := List.mem_filter.mp first
      obtain ⟨listed', key'⟩ := List.mem_filter.mp second
      exact List.inj_on_of_nodup_map consistent.taskKeys listed listed'
        ((of_decide_eq_true key).trans (of_decide_eq_true key').symm)
    have nodup : (tables.tasksFor id scheduledFor).Nodup := consistent.taskKeys.of_map.filter _
    generalize tables.tasksFor id scheduledFor = tasks at same nodup
    match tasks with
    | [] => exact Nat.zero_le _
    | [_] => exact le_rfl
    | one :: two :: _ =>
      have equal := same one List.mem_cons_self two (List.mem_cons_of_mem _ List.mem_cons_self)
      rw [equal] at nodup
      exact absurd List.mem_cons_self (List.nodup_cons.mp nodup).1

/-- A schedule in a zone of constant offset that stays active: no instant of it has two rows or two
runs, no tick handles an instant before its clock showed it, every match between its start and
its stored fire time has exactly one row where it catches up with all instants, and where it
catches up with the latest only, a tick that commits handles exactly that one and goes on to
the first match after its reading. -/
theorem triggers_exact {start : World} {manager : Nat} {input : CreateScheduleInput} {startAt : Option Int}
    {reading : Int} {row : ScheduleRow} (empty : start.Empty) (reached : ScheduleRun zones (fun _ _ => True) start before)
    (created : (ScheduleOp.run zones before (.creates manager input startAt reading)).tables.schedule? before.tables.nextId = some row)
    (parses : parseCron zones row.cronExpression row.timeZone = .ok parsed)
    (named : zones parsed.timeZone = some zone) (constant : zone.Constant) (run : ScheduleRun zones (Serving zones before.tables.nextId)
      (ScheduleOp.run zones before (.creates manager input startAt reading)) world) :
    (∀ id scheduledFor, (world.tables.rowsFor id scheduledFor).length ≤ 1 ∧ (world.tables.tasksFor id scheduledFor).length ≤ 1) ∧
    (∀ manager locked now, (world.managers manager).ticking = some now → now ∈ world.readings ∧
      ∀ id scheduledFor, ((ScheduleOp.run zones world (.fires manager locked)).tables.trigger? id scheduledFor).isSome →
        (world.tables.trigger? id scheduledFor).isSome ∨ scheduledFor ≤ now) ∧
    (row.catchUpPolicy = .all → row.catchUpWindowMs = none → ∃ next,
      Serves zones parsed .all none before.tables.nextId next world.tables ∧ ∀ scheduledFor,
        startAt.getD ((before.managers manager).now reading).1 < scheduledFor → scheduledFor < next →
        parsed.Matches zone scheduledFor → (world.tables.rowsFor before.tables.nextId scheduledFor).length = 1) ∧
    (row.catchUpPolicy = .latestOnly → ∀ manager locked now schedule trigger,
      (world.managers manager).ticking = some now → world.selected manager locked now = some schedule →
      schedule.id = before.tables.nextId → (fireSchedule zones world.tables schedule now).1 = .ok trigger →
      Serving zones before.tables.nextId (.fires manager locked) world → ∃ instant next', parsed.Matches zone instant ∧ instant ≤ now ∧
        (∀ other, parsed.Matches zone other → other ≤ now → other ≤ instant) ∧ (∀ id scheduledFor,
          ((ScheduleOp.run zones world (.fires manager locked)).tables.trigger? id scheduledFor).isSome ↔
            (world.tables.trigger? id scheduledFor).isSome ∨ id = before.tables.nextId ∧ scheduledFor = instant) ∧
        Serves zones parsed .latestOnly row.catchUpWindowMs before.tables.nextId next'
          (ScheduleOp.run zones world (.fires manager locked)).tables ∧ NextMatch (parsed.Matches zone) now next') := by
  have consistent := reached.consistent empty.consistent
  have clocked := reached.clocked empty.clocked
  have consistent' : Consistent (ScheduleOp.run zones before (.creates manager input startAt reading)).tables :=
    consistent.steps ((ScheduleOp.creates manager input startAt reading).run_steps before)
  have clocked' : Clocked (ScheduleOp.run zones before (.creates manager input startAt reading)) := clocked.run _
  obtain ⟨first, found, serves⟩ := createSchedule_serves consistent created parses
  have isFirst := nextCronTime_isNext named constant found
  have kept := run.consistent consistent'
  have ticking := (run.clocked clocked').ticking
  have shown := (run.clocked clocked').ticks
  have fired (manager : Nat) (locked : ScheduleId → Bool) (now : Int) (at' : (world.managers manager).ticking = some now) :
      (ScheduleOp.run zones world (.fires manager locked)).tables =
        (world.selected manager locked now).elim world.tables fun schedule => (fireSchedule zones world.tables schedule now).2 := by
    simp only [ScheduleOp.run, at', fireNextDue]
    unfold World.selected
    cases selectDue world.tables (world.managers manager).queueName locked now <;> rfl
  refine ⟨fun id scheduledFor => kept.at_most_once, ?_, ?_, ?_⟩
  · intro manager locked now at'
    refine ⟨shown now (ticking manager now at'), fun id scheduledFor handled => ?_⟩
    rw [fired manager locked now at'] at handled
    cases selected : world.selected manager locked now with
    | none =>
      rw [selected] at handled
      exact .inl handled
    | some schedule =>
      rw [selected] at handled
      exact fireSchedule_past (selectDue_some selected).1 handled
  · intro policy window
    rw [policy, window] at serves
    obtain ⟨next, serves', rows⟩ := serves.rows_before consistent' clocked' isFirst named constant run
    exact ⟨next, serves', fun scheduledFor above below matched => kept.one_row (rows scheduledFor above below matched)⟩
  · intro policy manager locked now schedule trigger at' selected own committed active
    rw [policy] at serves
    obtain ⟨next, serves', matched⟩ := serves.next_matches consistent' clocked' isFirst.holds named constant run
    have outcome := fired manager locked now at'
    rw [selected] at outcome
    have active' := active.2
    rw [outcome] at active' ⊢
    obtain ⟨instant, next', holds, -, rest⟩ :=
      serves'.fires_latest kept matched named constant selected own committed active'
    exact ⟨instant, next', holds, rest⟩

end Passing

section Hourly

def utcZone : Zone := fun _ => 0

def utcOnly : ZoneTable := fun name => if name = "UTC" then some utcZone else none

def idleWorld : World := ⟨⟨[], [], [], [], [], 0⟩, fun _ => ⟨"default", none, none, none⟩, fun _ => none, [], []⟩

def hourlyCron : CronSchedule :=
  ⟨"0 * * * *", "UTC", [0], List.range 24, (List.range 31).map (1 + ·), (List.range 12).map (1 + ·), [0, 1, 2, 3, 4, 5, 6, 0],
    false, false⟩

def hourlyInput (policy : CatchUpPolicy) (window : Option Nat) : CreateScheduleInput :=
  ⟨0, "report", "0 * * * *", "order", .null, "UTC", .skip, policy, window⟩

/-- An hourly schedule, created so that it fires at the epoch first. -/
def hourlyWorld (policy : CatchUpPolicy) (window : Option Nat) : World :=
  ScheduleOp.run utcOnly idleWorld (.creates 0 (hourlyInput policy window) (some (-1)) 0)

/-- A tick at half past two, after an outage. -/
def outageWorld (policy : CatchUpPolicy) (window : Option Nat) : World :=
  ScheduleOp.run utcOnly (ScheduleOp.run utcOnly (hourlyWorld policy window) (.begins 0 9000000)) (.fires 0 fun _ => false)

/-- What a tick reads of a schedule. -/
def ScheduleRow.columns (row : ScheduleRow) :
    (ScheduleState × CatchUpPolicy) × (Option Nat × Option Int) × String × String :=
  ((row.state, row.catchUpPolicy), (row.catchUpWindowMs, row.nextFireAt), row.cronExpression, row.timeZone)

theorem idleWorld_empty : idleWorld.Empty := ⟨rfl, rfl, fun _ => ⟨rfl, rfl⟩, fun _ => rfl⟩

theorem hourly_parses : parseCron utcOnly "0 * * * *" "UTC" = .ok hourlyCron := by decide +kernel

theorem utcZone_constant : utcZone.Constant := ⟨0, fun _ => rfl⟩

theorem Serves.hourly {tables : ScheduleTables} {policy : CatchUpPolicy} {window : Option Nat} {next : Int}
    (stored : (tables.schedule? 0).map ScheduleRow.columns = some ((.active, policy), (window, some next), "0 * * * *", "UTC")) :
    Serves utcOnly hourlyCron policy window 0 next tables := by
  obtain ⟨row, found, columns⟩ := Option.map_eq_some_iff.mp stored
  simp only [ScheduleRow.columns, Prod.mk.injEq] at columns
  obtain ⟨⟨active, policy'⟩, ⟨window', due⟩, expression, timeZone⟩ := columns
  refine ⟨⟨row, found, active, policy', window', due, ?_⟩⟩
  rw [expression, timeZone]
  exact hourly_parses

theorem Serves.serving {zones : ZoneTable} {parsed : CronSchedule} {policy : CatchUpPolicy} {window : Option Nat}
    {id : ScheduleId} {next : Int} {world : World} {op : ScheduleOp}
    (serves : Serves zones parsed policy window id next (op.run zones world).tables)
    (unresumed : ∀ manager reading, op ≠ .resumes manager id reading) : Serving zones id op world := by
  obtain ⟨row, found, active, -⟩ := serves.row
  exact ⟨unresumed, row, found, active⟩

/-- The outage, as a run of operations under which the schedule stays active. -/
theorem outageWorld_run {allowed : ScheduleOp → World → Prop} {policy : CatchUpPolicy} {window : Option Nat}
    (begins : allowed (.begins 0 9000000) (hourlyWorld policy window)) (fires : allowed (.fires 0 fun _ => false)
      (ScheduleOp.run utcOnly (hourlyWorld policy window) (.begins 0 9000000))) :
    ScheduleRun utcOnly allowed (hourlyWorld policy window) (outageWorld policy window) :=
  (ScheduleRun.refl.step _ begins).step _ fires

/-- An instant within the window: the tick at half past two handles that of two o'clock. -/
theorem window_drops_hourly : ∃ next, Serves utcOnly hourlyCron .all (some 3600000) 0 next (outageWorld .all (some 3600000)).tables ∧
    ∀ scheduledFor, hourlyCron.Matches utcZone scheduledFor → 0 ≤ scheduledFor → scheduledFor < next →
      ((outageWorld .all (some 3600000)).tables.rowsFor 0 scheduledFor).length = 1 ∨
        ∃ now ∈ (outageWorld .all (some 3600000)).ticks, scheduledFor + (3600000 : Nat) < now := by
  have created : ScheduleRun utcOnly (fun _ _ => True) idleWorld (hourlyWorld .all (some 3600000)) :=
    .step .refl _ trivial
  have begins : Serves utcOnly hourlyCron .all (some 3600000) 0 0
      (ScheduleOp.run utcOnly (hourlyWorld .all (some 3600000)) (.begins 0 9000000)).tables :=
    .hourly (by decide +kernel)
  have fires : Serves utcOnly hourlyCron .all (some 3600000) 0 10800000 (outageWorld .all (some 3600000)).tables :=
    .hourly (by decide +kernel)
  refine window_drops idleWorld_empty created (.hourly (by decide +kernel)) rfl utcZone_constant
    (outageWorld_run ⟨begins.serving (fun _ _ same => nomatch same), (fun _ _ _ _ _ same => nomatch same)⟩
      ⟨fires.serving (fun _ _ same => nomatch same), ?_⟩)
  intro manager locked now schedule next same ticking selected own due missed
  cases same
  cases ticking
  exact ⟨7200000, by decide +kernel, by decide, by decide⟩

/-- A window of ten minutes: the tick at half past two passes three o'clock, which is still to come. -/
theorem window_drops_future : ∃ before world next scheduledFor, ScheduleRun utcOnly (fun _ _ => True) idleWorld before ∧
    Serves utcOnly hourlyCron .all (some 600000) 0 0 before.tables ∧ ScheduleRun utcOnly (Serving utcOnly 0) before world ∧
    Serves utcOnly hourlyCron .all (some 600000) 0 next world.tables ∧
    hourlyCron.Matches utcZone scheduledFor ∧ 0 ≤ scheduledFor ∧ scheduledFor < next ∧
    world.tables.rowsFor 0 scheduledFor = [] ∧ ∀ now ∈ world.ticks, now < scheduledFor := by
  have begins : Serves utcOnly hourlyCron .all (some 600000) 0 0
      (ScheduleOp.run utcOnly (hourlyWorld .all (some 600000)) (.begins 0 9000000)).tables :=
    .hourly (by decide +kernel)
  have fires : Serves utcOnly hourlyCron .all (some 600000) 0 14400000 (outageWorld .all (some 600000)).tables :=
    .hourly (by decide +kernel)
  have empty : (outageWorld .all (some 600000)).tables.rowsFor 0 10800000 = [] := by
    rw [← List.isEmpty_iff]
    decide +kernel
  refine ⟨hourlyWorld .all (some 600000), outageWorld .all (some 600000), 14400000, 10800000, .step .refl _ trivial,
    .hourly (by decide +kernel), outageWorld_run (begins.serving fun _ _ same => nomatch same)
      (fires.serving fun _ _ same => nomatch same), fires, by decide +kernel, by decide, by decide, empty, ?_⟩
  intro now tick
  have only : now = 9000000 := List.mem_singleton.mp tick
  omega

theorem triggers_exact_hourly : ∃ next, Serves utcOnly hourlyCron .all none 0 next (outageWorld .all none).tables ∧
    ∀ scheduledFor, -1 < scheduledFor → scheduledFor < next → hourlyCron.Matches utcZone scheduledFor →
      ((outageWorld .all none).tables.rowsFor 0 scheduledFor).length = 1 := by
  have begins : Serves utcOnly hourlyCron .all none 0 0
      (ScheduleOp.run utcOnly (hourlyWorld .all none) (.begins 0 9000000)).tables := .hourly (by decide +kernel)
  have fires : Serves utcOnly hourlyCron .all none 0 3600000 (outageWorld .all none).tables :=
    .hourly (by decide +kernel)
  have serves : Serves utcOnly hourlyCron .all none 0 0 (hourlyWorld .all none).tables := .hourly (by decide +kernel)
  obtain ⟨row, found, -, policy, window, -, parses⟩ := serves.row
  exact (triggers_exact idleWorld_empty .refl found parses rfl utcZone_constant
    (outageWorld_run (begins.serving fun _ _ same => nomatch same)
      (fires.serving fun _ _ same => nomatch same))).2.2.1 policy window

/-- Operations that are allowed in every world, one after the other. -/
theorem ScheduleRun.folded {zones : ZoneTable} {allowed : ScheduleOp → World → Prop} (start : World)
    (ops : List ScheduleOp) (met : ∀ op ∈ ops, ∀ world, allowed op world) :
    ScheduleRun zones allowed start (ops.foldl (ScheduleOp.run zones) start) := by
  induction ops using List.reverseRecOn with
  | nil => exact .refl
  | append_singleton ops op ih =>
    rw [List.foldl_append]
    refine .step (ih fun other listed => met other (List.mem_append_left _ listed)) op ?_
    exact met op (List.mem_append_right _ (List.mem_singleton_self op)) _

/-- A schedule with the policy buffer_one fires at midnight. A tick at two buffers the trigger of one o'clock behind
that run, the run ends, and another manager begins to look for a buffer to drain. -/
def lookingOps : List ScheduleOp :=
  [.creates 0 { hourlyInput .all none with overlapPolicy := .bufferOne } (some (-1)) 0, .begins 0 0,
    .fires 0 fun _ => false, .ends 0, .begins 1 7200000, .fires 1 fun _ => false, .closes 1 .completed,
    .begins 0 7200000, .looks 0]

def lookingWorld : World := lookingOps.foldl (ScheduleOp.run utcOnly) idleWorld

/-- The trigger of one o'clock starts. -/
def drainedWorld : World := ScheduleOp.run utcOnly lookingWorld (.drains 0 fun _ => false)

/-- The tick of the first manager goes on with the trigger of two o'clock before the other manager has the row. -/
def overlappingWorld : World :=
  ScheduleOp.run utcOnly (ScheduleOp.run utcOnly lookingWorld (.fires 1 fun _ => false)) (.drains 0 fun _ => false)

theorem overlap_invariant_hourly : ∃ row ∈ drainedWorld.tables.schedules, row.overlapPolicy = .bufferOne ∧
    (drainedWorld.tables.openRuns row.id).length = 1 ∧ (drainedWorld.tables.openRuns row.id).length ≤ 1 ∧
    (drainedWorld.tables.bufferedRows row.id).map TriggerRow.scheduledFor = row.bufferedFor.toList := by
  have looked : ScheduleRun utcOnly (fun op world => op.Current world) idleWorld lookingWorld := by
    refine ScheduleRun.folded _ _ fun op listed world => ?_
    simp only [lookingOps, List.mem_cons, List.not_mem_nil, or_false] at listed
    rcases listed with rfl | rfl | rfl | rfl | rfl | rfl | rfl | rfl | rfl <;> trivial
  have free : ((lookingWorld.managers 0).looking.all fun snapshot =>
      (selectBuffered snapshot lookingWorld.tables (lookingWorld.managers 0).queueName fun _ => false).all fun schedule =>
        (lookingWorld.tables.openRuns schedule.id).isEmpty) = true := by decide +kernel
  have drained : ScheduleRun utcOnly (fun op world => op.Current world) idleWorld drainedWorld := by
    refine looked.step (.drains 0 fun _ => false) fun snapshot schedule looking selected => ?_
    rw [looking, Option.all_some, selected, Option.all_some] at free
    exact List.isEmpty_iff.mp free
  have single : (drainedWorld.tables.schedules.any fun row => row.overlapPolicy == .bufferOne &&
      (drainedWorld.tables.openRuns row.id).length == 1) = true := by decide +kernel
  obtain ⟨row, member, shape⟩ := List.any_eq_true.mp single
  simp only [Bool.and_eq_true, beq_iff_eq] at shape
  have apart : row.overlapPolicy ≠ .allowAll := by
    rw [shape.1]
    decide
  have invariant := @overlap_invariant utcOnly idleWorld idleWorld_empty
  exact ⟨row, member, shape.1, shape.2, invariant.1 drainedWorld drained row member apart,
    (invariant.2 drainedWorld (drained.mono fun _ _ _ => trivial)).1 row member⟩

/-- A drain that looked before another manager started a run starts a second one. -/
theorem overlap_stale : ¬ ∀ world, ScheduleRun utcOnly (fun _ _ => True) idleWorld world →
    ∀ row ∈ world.tables.schedules, row.overlapPolicy ≠ .allowAll → (world.tables.openRuns row.id).length ≤ 1 := by
  intro apart
  have looked : ScheduleRun utcOnly (fun _ _ => True) idleWorld lookingWorld :=
    ScheduleRun.folded _ _ fun _ _ _ => trivial
  have two : (overlappingWorld.tables.schedules.any fun row => row.overlapPolicy == .bufferOne &&
      (overlappingWorld.tables.openRuns row.id).length == 2) = true := by decide +kernel
  obtain ⟨row, member, shape⟩ := List.any_eq_true.mp two
  simp only [Bool.and_eq_true, beq_iff_eq] at shape
  have bound := apart overlappingWorld ((looked.step _ trivial).step _ trivial) row member (by rw [shape.1]; decide)
  rw [shape.2] at bound
  exact absurd bound (by decide)

end Hourly

end DurableExecution.Schedules

import DurableExecution.Schedules.CatchUp
import DurableExecution.Schedules.CronPeriod

/-
This file models a whole call of `backfill`, with anything else between its transactions, and
shows what it leaves in the ledger and reports.
-/

namespace DurableExecution.Schedules

open DurableExecution.Order

/-- What a call of `backfill` does from the instants that it has listed on: one transaction for each of
them, with other operations of some kind before, between and after. It reports what its transactions
handled. -/
inductive BackfillCall (zones : ZoneTable) (allowed : ScheduleOp → World → Prop) (id : ScheduleId) :
    World → List Int → List ScheduleTrigger → World → Prop where
  | done {world later : World} (others : ScheduleRun zones allowed world later) :
      BackfillCall zones allowed id world [] [] later
  | handles {world middle later : World} {row : ScheduleRow} {scheduledFor : Int} {instants : List Int}
      {report : List ScheduleTrigger} (others : ScheduleRun zones allowed world middle)
      (found : middle.tables.schedule? id = some row)
      (rest : BackfillCall zones allowed id { middle with tables := (handleTrigger middle.tables row scheduledFor).2 }
        instants report later) :
      BackfillCall zones allowed id world (scheduledFor :: instants)
        ((handleTrigger middle.tables row scheduledFor).1.toList ++ report) later

/-- At most so many instants of a range match. -/
def AtMost (limit : Nat) (Matches : Int → Prop) (from' to' : Int) : Prop :=
  ∀ times : List Int, times.Nodup → (∀ instant ∈ times, from' ≤ instant ∧ instant < to' ∧ Matches instant) →
    times.length ≤ limit

/-- A row of the ledger stays as it is, or it was buffered and has been started or skipped. -/
def TriggerRow.Keeps (trigger later : TriggerRow) : Prop :=
  later = trigger ∨ trigger.outcome = .buffered ∧ later.outcome ≠ .buffered

variable {zones : ZoneTable} {allowed : ScheduleOp → World → Prop} {id : ScheduleId} {world later : World}
  {tables tables' : ScheduleTables} {scheduledFor instant from' to' : Int} {instants : List Int}
  {report : List ScheduleTrigger} {schedule : ScheduleRow} {trigger : TriggerRow}

section Rows

theorem TriggerRow.Keeps.trans {one two three : TriggerRow} (first : one.Keeps two) (second : two.Keeps three) : one.Keeps three := by
  rcases second with rfl | ⟨waiting, settled⟩
  · exact first
  · rcases first with rfl | ⟨-, settled'⟩
    · exact .inr ⟨waiting, settled⟩
    · exact absurd waiting settled'

/-- A write to the ledger keeps every row but the one that is buffered. -/
theorem LedgerStep.keeps {blind : Prop} (consistent : Consistent tables) (step : LedgerStep blind tables tables')
    (found : tables.trigger? id instant = some trigger) : ∃ row, tables'.trigger? id instant = some row ∧ trigger.Keeps row := by
  have buffered {schedule : ScheduleRow} (member : schedule ∈ tables.schedules) (own : id = schedule.id)
      (waiting : schedule.bufferedFor = some instant) : trigger.outcome = .buffered := by
    obtain ⟨row, found', outcome⟩ := (consistent.buffered schedule member instant).mp waiting
    rw [← own] at found'
    cases found.symm.trans found'
    exact outcome
  cases step with
  | starts schedule scheduledFor member absent free =>
    refine ⟨trigger, ?_, .inl rfl⟩
    have absent' : (startRun tables schedule scheduledFor).2.trigger? schedule.id scheduledFor = none := absent
    rw [addTrigger_trigger? absent', if_neg]
    · exact found
    · rintro ⟨rfl, rfl⟩
      cases absent.symm.trans found
  | buffers schedule scheduledFor member absent policy =>
    rw [buffers_trigger? absent, if_neg]
    · by_cases replaced : id = schedule.id ∧ schedule.bufferedFor = some instant
      · rw [if_pos replaced, found]
        refine ⟨_, rfl, .inr ⟨buffered member replaced.1 replaced.2, ?_⟩⟩
        exact fun waiting => nomatch waiting
      · rw [if_neg replaced]
        exact ⟨trigger, found, .inl rfl⟩
    · rintro ⟨rfl, rfl⟩
      cases absent.symm.trans found
  | skips schedule scheduledFor member absent =>
    refine ⟨trigger, ?_, .inl rfl⟩
    rw [addTrigger_trigger? absent, if_neg]
    · exact found
    · rintro ⟨rfl, rfl⟩
      cases absent.symm.trans found
  | drains schedule scheduledFor member active waiting free =>
    change ∃ row, (ScheduleTables.updateTrigger _ schedule.id scheduledFor _).trigger? id instant = some row ∧ _
    rw [updateTrigger_trigger?]
    · split
      · next own =>
          obtain ⟨rfl, rfl⟩ := own
          refine ⟨_, congrArg (Option.map _) found, .inr ⟨buffered member rfl waiting, ?_⟩⟩
          exact fun waiting => nomatch waiting
      · exact ⟨trigger, found, .inl rfl⟩
    · exact fun _ => rfl
  | opens row numbered unbuffered => exact ⟨trigger, found, .inl rfl⟩
  | closes runId status => exact ⟨trigger, found, .inl rfl⟩
  | continues runId input =>
    unfold continueRun
    split <;> exact ⟨trigger, found, .inl rfl⟩
  | creates run => exact ⟨trigger, found, .inl rfl⟩

theorem LedgerSteps.keeps {blind : Prop} {marked : ScheduleId → Prop} (consistent : Consistent tables)
    (steps : LedgerSteps blind marked tables tables') (found : tables.trigger? id instant = some trigger) :
    ∃ row, tables'.trigger? id instant = some row ∧ trigger.Keeps row := by
  obtain ⟨middle, written, marks⟩ := steps
  obtain ⟨row, found', keeps⟩ : ∃ row, middle.trigger? id instant = some row ∧ trigger.Keeps row := by
    cases written with
    | refl => exact ⟨trigger, found, .inl rfl⟩
    | single step => exact step.keeps consistent found
  cases marks with
  | refl => exact ⟨row, found', keeps⟩
  | single step =>
    obtain ⟨other, own, change, frame⟩ := step
    exact ⟨row, found', keeps⟩

theorem ScheduleRun.keeps (run : ScheduleRun zones allowed world later) (consistent : Consistent world.tables)
    (found : world.tables.trigger? id instant = some trigger) : ∃ row, later.tables.trigger? id instant = some row ∧ trigger.Keeps row := by
  induction run with
  | refl => exact ⟨trigger, found, .inl rfl⟩
  | step run op met ih =>
    obtain ⟨row, found', keeps⟩ := ih
    obtain ⟨row', found'', keeps'⟩ := (op.run_steps _).keeps (run.consistent consistent) found'
    exact ⟨row', found'', keeps.trans keeps'⟩

theorem handleTrigger_ledger (member : schedule ∈ tables.schedules) :
    LedgerSteps False (fun _ => False) tables (handleTrigger tables schedule scheduledFor).2 :=
  ⟨_, handleTrigger_steps member, .refl⟩

/-- A transaction of a trigger reports it exactly when it had no row. -/
theorem handleTrigger_reports : (∃ reported, (handleTrigger tables schedule scheduledFor).1 = some reported ∧
      reported.scheduleId = schedule.id ∧ reported.scheduledFor = scheduledFor ∧ tables.trigger? schedule.id scheduledFor = none) ∨
    (handleTrigger tables schedule scheduledFor).1 = none ∧ (tables.trigger? schedule.id scheduledFor).isSome := by
  unfold handleTrigger
  cases found : tables.trigger? schedule.id scheduledFor with
  | none =>
    rw [if_neg]
    · refine .inl ?_
      repeat' split
      all_goals exact ⟨_, rfl, rfl, rfl, rfl⟩
    · rw [trigger?_none.mp found]
      decide
  | some trigger =>
    rw [if_pos]
    · exact .inr ⟨rfl, rfl⟩
    · rw [Bool.not_eq_true', List.isEmpty_eq_false_iff]
      intro empty
      cases (trigger?_none.mpr empty).symm.trans found

end Rows

section Calls

theorem BackfillCall.consistent (call : BackfillCall zones allowed id world instants report later)
    (consistent : Consistent world.tables) : Consistent later.tables := by
  induction call with
  | done others => exact others.consistent consistent
  | handles others found rest ih =>
    exact ih ((others.consistent consistent).steps (handleTrigger_ledger (schedule?_some found).1))

/-- What a whole call makes of a row that was there before it. -/
theorem BackfillCall.keeps (call : BackfillCall zones allowed id world instants report later)
    (consistent : Consistent world.tables) {other : ScheduleId} (found : world.tables.trigger? other instant = some trigger) :
    ∃ row, later.tables.trigger? other instant = some row ∧ trigger.Keeps row := by
  induction call generalizing trigger with
  | done others => exact others.keeps consistent found
  | @handles _ middle _ schedule scheduledFor _ _ others found' rest ih =>
    obtain ⟨row, between, keeps⟩ := others.keeps consistent found
    have steps := @handleTrigger_ledger _ scheduledFor _ (schedule?_some found').1
    have consistent' := others.consistent consistent
    obtain ⟨row', between', keeps'⟩ := steps.keeps consistent' between
    obtain ⟨row'', after, keeps''⟩ := ih (consistent'.steps steps) between'
    exact ⟨row'', after, (keeps.trans keeps').trans keeps''⟩

/-- After a call every instant that it listed has a row. -/
theorem BackfillCall.handled (call : BackfillCall zones allowed id world instants report later)
    (consistent : Consistent world.tables) (listed : instant ∈ instants) : (later.tables.trigger? id instant).isSome := by
  induction call with
  | done others => exact absurd listed List.not_mem_nil
  | @handles _ middle _ row scheduledFor _ _ others found rest ih =>
    obtain ⟨member, own⟩ := schedule?_some found
    have steps := @handleTrigger_ledger _ scheduledFor _ member
    have consistent' := (others.consistent consistent).steps steps
    rcases List.mem_cons.mp listed with rfl | listed
    · have here := (@handleTrigger_handled _ id instant _ member instant).mpr
        (.inr ⟨own.symm, rfl⟩)
      obtain ⟨trigger, found'⟩ := Option.isSome_iff_exists.mp here
      obtain ⟨row, after, -⟩ := rest.keeps consistent' found'
      exact Option.isSome_iff_exists.mpr ⟨row, after⟩
    · exact ih consistent' listed

/-- A call reports instants that it listed, in their order, and none that had a row before it. -/
theorem BackfillCall.reported (call : BackfillCall zones allowed id world instants report later)
    (consistent : Consistent world.tables) : (report.map ScheduleTrigger.scheduledFor).Sublist instants ∧
      ∀ reported ∈ report, reported.scheduleId = id ∧ world.tables.trigger? id reported.scheduledFor = none := by
  induction call with
  | done others => exact ⟨.refl _, fun _ listed => absurd listed List.not_mem_nil⟩
  | @handles world middle _ row scheduledFor _ _ others found rest ih =>
    obtain ⟨member, own⟩ := schedule?_some found
    have steps := @handleTrigger_ledger _ scheduledFor _ member
    have between := others.consistent consistent
    obtain ⟨sublist, fresh⟩ := ih (between.steps steps)
    -- what has no row later had none before
    have earlier {instant : Int} (absent : middle.tables.trigger? id instant = none) :
        world.tables.trigger? id instant = none := by
      cases before : world.tables.trigger? id instant with
      | none => rfl
      | some trigger =>
        obtain ⟨row, after, -⟩ := others.keeps consistent before
        cases absent.symm.trans after
    have later {instant : Int} (absent : (handleTrigger middle.tables row scheduledFor).2.trigger? id instant = none) :
        middle.tables.trigger? id instant = none := by
      cases before : middle.tables.trigger? id instant with
      | none => rfl
      | some trigger =>
        obtain ⟨row, after, -⟩ := steps.keeps between before
        cases absent.symm.trans after
    rcases handleTrigger_reports with
      ⟨reported, here, ofSchedule, instant', absent⟩ | ⟨none', -⟩
    · rw [here]
      refine ⟨?_, fun other listed => ?_⟩
      · rw [Option.toList_some, List.singleton_append, List.map_cons, instant']
        exact sublist.cons_cons _
      · rw [Option.toList_some, List.singleton_append] at listed
        rcases List.mem_cons.mp listed with rfl | listed
        · rw [own] at absent
          rw [instant']
          exact ⟨ofSchedule.trans own, earlier absent⟩
        · obtain ⟨ofId, absent'⟩ := fresh other listed
          exact ⟨ofId, earlier (later absent')⟩
    · rw [none', Option.toList_none, List.nil_append]
      refine ⟨sublist.cons _, fun other listed => ?_⟩
      obtain ⟨ofId, absent'⟩ := fresh other listed
      exact ⟨ofId, earlier (later absent')⟩

/-- An instant that the other operations leave alone is reported exactly when it had no row. -/
theorem BackfillCall.reports (call : BackfillCall zones allowed id world instants report later)
    (consistent : Consistent world.tables) (apart : ∀ op world, allowed op world →
      world.tables.trigger? id instant = none → (op.run zones world).tables.trigger? id instant = none) :
    instant ∈ report.map ScheduleTrigger.scheduledFor ↔ instant ∈ instants ∧ world.tables.trigger? id instant = none := by
  induction call with
  | done others => simp
  | @handles world middle _ row scheduledFor rest' _ others found rest ih =>
    obtain ⟨member, own⟩ := schedule?_some found
    have steps := @handleTrigger_ledger _ scheduledFor _ member
    have between := others.consistent consistent
    have alone : middle.tables.trigger? id instant = none ↔ world.tables.trigger? id instant = none := by
      constructor
      · intro absent
        cases before : world.tables.trigger? id instant with
        | none => rfl
        | some trigger =>
          obtain ⟨row, after, -⟩ := others.keeps consistent before
          cases absent.symm.trans after
      · intro absent
        clear rest ih between found steps member own
        induction others with
        | refl => exact absent
        | step run op met ih => exact apart op _ met ih
    have after : (handleTrigger middle.tables row scheduledFor).2.trigger? id instant = none ↔
        middle.tables.trigger? id instant = none ∧ instant ≠ scheduledFor := by
      rw [← Option.not_isSome_iff_eq_none, ← Option.not_isSome_iff_eq_none, handleTrigger_handled member, own]
      simp only [true_and, not_or]
    rw [List.map_append, List.mem_append, ih (between.steps steps), after, alone, List.mem_cons]
    rcases handleTrigger_reports with
      ⟨reported, here, -, instant', absent⟩ | ⟨none', known⟩
    · rw [here, Option.toList_some, List.map_singleton, List.mem_singleton, instant']
      rw [own] at absent
      constructor
      · rintro (rfl | ⟨listed, absent', -⟩)
        · exact ⟨.inl rfl, alone.mp absent⟩
        · exact ⟨.inr listed, absent'⟩
      · rintro ⟨either, absent'⟩
        by_cases same : instant = scheduledFor
        · exact .inl same
        · exact .inr ⟨either.resolve_left same, absent', same⟩
    · rw [none', Option.toList_none, List.map_nil]
      rw [own, Option.isSome_iff_ne_none] at known
      constructor
      · rintro (listed | ⟨listed, absent', -⟩)
        · exact absurd listed List.not_mem_nil
        · exact ⟨.inr listed, absent'⟩
      · rintro ⟨either, absent'⟩
        have other : instant ≠ scheduledFor := by
          rintro rfl
          exact known (alone.mpr absent')
        exact .inr ⟨either.resolve_left other, absent', other⟩

end Calls

section Results

variable {zone : Zone} {parsed : CronSchedule} {row : ScheduleRow} {start : World} {Matches : Int → Prop} {limit : Nat}

/-- A list of first matches has them all where there are no more than it may have. -/
theorem FirstMatches.all (first : FirstMatches Matches from' to' limit instants) (few : AtMost limit Matches from' to') :
    instant ∈ instants ↔ from' ≤ instant ∧ instant < to' ∧ Matches instant := by
  constructor
  · intro listed
    obtain ⟨above, below, matched, -⟩ := (first.listed instant).mp listed
    exact ⟨above, below, matched⟩
  · rintro ⟨above, below, matched⟩
    by_contra missed
    have nodup : (instant :: instants).Nodup := List.nodup_cons.mpr ⟨missed, first.increasing.imp ne_of_lt⟩
    have counted := few (instant :: instants) nodup fun other listed => by
      rcases List.mem_cons.mp listed with rfl | listed
      · exact ⟨above, below, matched⟩
      · obtain ⟨above', below', matched', -⟩ := (first.listed other).mp listed
        exact ⟨above', below', matched'⟩
    rw [List.length_cons] at counted
    exact missed ((first.listed instant).mpr ⟨above, below, matched, .inl counted⟩)

/-- The instants of a backfill are the first ones of its range, in a zone of constant offset. -/
theorem backfillInstants_first (found : world.tables.schedule? id = some row)
    (parses : parseCron zones row.cronExpression row.timeZone = .ok parsed) (named : zones parsed.timeZone = some zone)
    (constant : zone.Constant) (hundred : 100 ≤ localYear zone from')
    (listed : backfillInstants zones world.tables id from' to' = .ok instants) :
    FirstMatches (parsed.MatchesLocal zone) from' to' 10000 instants := by
  obtain ⟨offset, constant⟩ := constant
  unfold backfillInstants at listed
  rw [found] at listed
  simp only [parses, bind, Except.bind] at listed
  have first := cronTimesBetween_first (fun cursor next above _ found =>
    nextCronTime_calendar named constant (localYear_later constant (by omega) hundred) found) listed
  rwa [Int.sub_add_cancel] at first

/-- A call of `backfill` that returns, with anything else between its transactions, where no more than
10000 instants of the range match, in a zone of constant offset from the year 100 on. Every matching
instant has one row then. A row that was there before is as it was, or it was buffered and has been
started or skipped. The report lists matching instants without a row in their order, and all of them
where other operations leave them alone. And nothing that happens later gives an instant a second run. -/
theorem backfill_handles (empty : start.Empty) (before : ScheduleRun zones (fun _ _ => True) start world)
    (found : world.tables.schedule? id = some row)
    (parses : parseCron zones row.cronExpression row.timeZone = .ok parsed) (named : zones parsed.timeZone = some zone)
    (constant : zone.Constant) (hundred : 100 ≤ localYear zone from')
    (few : AtMost 10000 (parsed.MatchesLocal zone) from' to')
    (listed : backfillInstants zones world.tables id from' to' = .ok instants)
    (call : BackfillCall zones allowed id world instants report later) :
    (∀ instant, from' ≤ instant → instant < to' → parsed.MatchesLocal zone instant →
      (later.tables.rowsFor id instant).length = 1) ∧
    (∀ other instant trigger, world.tables.trigger? other instant = some trigger →
      ∃ row, later.tables.trigger? other instant = some row ∧ trigger.Keeps row) ∧
    ((report.map ScheduleTrigger.scheduledFor).Pairwise (· < ·) ∧
      (∀ reported ∈ report, reported.scheduleId = id ∧ from' ≤ reported.scheduledFor ∧ reported.scheduledFor < to' ∧
        parsed.MatchesLocal zone reported.scheduledFor ∧ world.tables.trigger? id reported.scheduledFor = none) ∧
      ∀ instant, from' ≤ instant → instant < to' → parsed.MatchesLocal zone instant →
        (∀ op world, allowed op world → world.tables.trigger? id instant = none →
          (op.run zones world).tables.trigger? id instant = none) →
        (instant ∈ report.map ScheduleTrigger.scheduledFor ↔ world.tables.trigger? id instant = none)) ∧
    ∀ last, ScheduleRun zones (fun _ _ => True) later last → ∀ other instant,
      (last.tables.rowsFor other instant).length ≤ 1 ∧ (last.tables.tasksFor other instant).length ≤ 1 := by
  have consistent := before.consistent empty.consistent
  have first := backfillInstants_first found parses named constant hundred listed
  have all {instant : Int} : instant ∈ instants ↔ from' ≤ instant ∧ instant < to' ∧ parsed.MatchesLocal zone instant :=
    first.all few
  refine ⟨fun instant above below matched => ?_, fun other instant trigger found => call.keeps consistent found,
    ⟨?_, fun reported here => ?_, fun instant above below matched apart => ?_⟩, fun last onward other instant => ?_⟩
  · obtain ⟨trigger, here⟩ := Option.isSome_iff_exists.mp (call.handled consistent (all.mpr ⟨above, below, matched⟩))
    rw [rowsFor_eq (call.consistent consistent).keys, here]
    rfl
  · exact first.increasing.sublist (call.reported consistent).1
  · obtain ⟨sublist, fresh⟩ := call.reported consistent
    obtain ⟨ofId, absent⟩ := fresh reported here
    obtain ⟨above, below, matched⟩ := all.mp (sublist.subset (List.mem_map_of_mem here))
    exact ⟨ofId, above, below, matched, absent⟩
  · rw [call.reports consistent apart]
    exact and_iff_right (all.mpr ⟨above, below, matched⟩)
  · exact (onward.consistent (call.consistent consistent)).at_most_once

end Results

section Hourly

/-- An hourly schedule that buffers one trigger, with the run of the epoch under way and one o'clock
buffered. -/
def bufferedWorld : World :=
  ScheduleOp.run utcOnly (ScheduleOp.run utcOnly (ScheduleOp.run utcOnly (ScheduleOp.run utcOnly idleWorld
    (.creates 0 { hourlyInput .all none with overlapPolicy := .bufferOne } (some (-1)) 0)) (.begins 0 4500000))
    (.fires 0 fun _ => false)) (.fires 0 fun _ => false)

theorem bufferedWorld_run : ScheduleRun utcOnly (fun _ _ => True) idleWorld bufferedWorld :=
  (((ScheduleRun.refl.step _ trivial).step _ trivial).step _ trivial).step _ trivial

/-- One transaction after the other, with nothing else between them. -/
def backfillAlone (id : ScheduleId) (instants : List Int) (world : World) : Option (List ScheduleTrigger × World) :=
  match instants with
  | [] => some ([], world)
  | scheduledFor :: rest =>
    match world.tables.schedule? id with
    | none => none
    | some row =>
      let (trigger, tables) := handleTrigger world.tables row scheduledFor
      (backfillAlone id rest { world with tables := tables }).map fun (report, later) => (trigger.toList ++ report, later)

theorem backfillAlone_call (ran : backfillAlone id instants world = some (report, later)) :
    BackfillCall zones allowed id world instants report later := by
  induction instants generalizing world report later with
  | nil =>
    cases ran
    exact .done .refl
  | cons scheduledFor rest ih =>
    rw [backfillAlone] at ran
    split at ran
    · cases ran
    · next row found =>
        obtain ⟨⟨report', later'⟩, ran', same⟩ := Option.map_eq_some_iff.mp ran
        cases same
        exact .handles .refl found (ih ran')

def hourlyRange : List Int := [0, 3600000, 7200000]

theorem hourlyRange_few : AtMost 10000 (hourlyCron.MatchesLocal utcZone) 0 10800000 := by
  intro times nodup inRange
  have within : times ⊆ (List.range 180).map fun minute : Nat => (minute : Int) * 60000 := by
    intro instant listed
    obtain ⟨above, below, matched⟩ := inRange instant listed
    have whole := matched.1
    exact List.mem_map.mpr ⟨(instant / 60000).toNat, List.mem_range.mpr (by omega), by omega⟩
  have short := (List.subperm_of_subset nodup within).length_le
  rw [List.length_map, List.length_range] at short
  omega

/-- The backfill of three hours handles the third one, and skips the second one, which was buffered. -/
theorem bufferedWorld_backfill : ∃ report later, backfillAlone 0 hourlyRange bufferedWorld = some (report, later) ∧
    (bufferedWorld.tables.trigger? 0 3600000).map TriggerRow.outcome = some .buffered ∧
    (later.tables.trigger? 0 3600000).map TriggerRow.outcome = some .skipped := by
  have ran : ((backfillAlone 0 hourlyRange bufferedWorld).map fun (_, later) =>
      (later.tables.trigger? 0 3600000).map TriggerRow.outcome) = some (some .skipped) := by decide +kernel
  obtain ⟨⟨report, later⟩, same, skipped⟩ := Option.map_eq_some_iff.mp ran
  exact ⟨report, later, same, by decide +kernel, skipped⟩

theorem bufferedWorld_lists : backfillInstants utcOnly bufferedWorld.tables 0 0 10800000 = .ok hourlyRange := by
  decide +kernel

theorem backfill_handles_hourly : ∃ row report later, bufferedWorld.tables.schedule? 0 = some row ∧
    BackfillCall utcOnly (fun _ _ => False) 0 bufferedWorld hourlyRange report later ∧
    ∀ instant, 0 ≤ instant → instant < 10800000 → hourlyCron.MatchesLocal utcZone instant →
      (later.tables.rowsFor 0 instant).length = 1 := by
  obtain ⟨report, later, ran, -⟩ := bufferedWorld_backfill
  have call : BackfillCall utcOnly (fun _ _ => False) 0 bufferedWorld hourlyRange report later := backfillAlone_call ran
  have stored : (bufferedWorld.tables.schedule? 0).map (fun row => (row.cronExpression, row.timeZone)) =
      some ("0 * * * *", "UTC") := by decide +kernel
  obtain ⟨row, found, columns⟩ := Option.map_eq_some_iff.mp stored
  obtain ⟨expression, timeZone⟩ := Prod.mk.inj columns
  have parses : parseCron utcOnly row.cronExpression row.timeZone = .ok hourlyCron := by
    rw [expression, timeZone]
    exact hourly_parses
  exact ⟨row, report, later, found, call, (backfill_handles idleWorld_empty bufferedWorld_run found parses rfl
    utcZone_constant (by decide) hourlyRange_few bufferedWorld_lists call).1⟩

theorem hourlyCron_matches (hour : Nat) : hourlyCron.MatchesLocal utcZone ((hour : Int) * 3600000) := by
  have whole : (hour : Int) * 3600000 / 60000 + 0 = hour * 60 := by omega
  have months : ∀ month, 1 ≤ month → month ≤ 12 → hourlyCron.months.contains month = true := by
    intro month above below
    exact List.contains_iff_mem.mpr (List.mem_map.mpr ⟨month - 1, List.mem_range.mpr (by omega), by omega⟩)
  have days : ∀ day, 1 ≤ day → day ≤ 31 → hourlyCron.daysOfMonth.contains day = true := by
    intro day above below
    exact List.contains_iff_mem.mpr (List.mem_map.mpr ⟨day - 1, List.mem_range.mpr (by omega), by omega⟩)
  have weekdays : ∀ weekday < 7, hourlyCron.daysOfWeek.contains weekday = true := by decide
  obtain ⟨month, december, day, last⟩ := civilFromDays_bounds ((hour * 60 : Int) / 1440)
  refine ⟨by omega, ?_, ?_, ?_, ?_⟩
  all_goals rw [calendarPartsAt, utcZone, whole]
  · exact months _ month december
  · have weekday : (((hour * 60 : Int) / 1440 + 4) % 7).toNat < 7 := by omega
    change (hourlyCron.daysOfMonth.contains _ && hourlyCron.daysOfWeek.contains _) = true
    rw [Bool.and_eq_true]
    exact ⟨days _ day last, weekdays _ weekday⟩
  · refine List.contains_iff_mem.mpr (List.mem_range.mpr ?_)
    simp only [calendarParts, localParts]
    omega
  · refine List.contains_iff_mem.mpr (List.mem_singleton.mpr ?_)
    simp only [calendarParts, localParts]
    omega

/-- A backfill changes the outcome of a row that was there before it. And its list of instants is cut
to 10000, and leaves out the midnight after a day of 23 hours. -/
theorem backfill_replaces : (∃ report later, BackfillCall utcOnly (fun _ _ => False) 0 bufferedWorld hourlyRange report later ∧
      (bufferedWorld.tables.trigger? 0 3600000).map TriggerRow.outcome = some .buffered ∧
      (later.tables.trigger? 0 3600000).map TriggerRow.outcome = some .skipped) ∧
    (∀ hour : Nat, hourlyCron.MatchesLocal utcZone (hour * 3600000)) ∧
    (¬ ∃ times, cronTimesBetween utcOnly hourlyCron (10001 * 3600000) 10000 (0 - 1) = .ok times ∧
      ∀ hour : Nat, hour < 10001 → (hour : Int) * 3600000 ∈ times) ∧ mondays.MatchesLocal berlinSpring 1774821600000 ∧
    cronTimesBetween berlinOnly mondays 1774828800000 10000 (1774742400000 - 1) = .ok [] := by
  obtain ⟨report, later, ran, waiting, skipped⟩ := bufferedWorld_backfill
  refine ⟨⟨report, later, backfillAlone_call ran, waiting, skipped⟩, hourlyCron_matches, ?_, by decide +kernel,
    by decide +kernel⟩
  rintro ⟨times, listed, all⟩
  have first := cronTimesBetween_first (fun cursor next _ _ found =>
    nextCronTime_isNext rfl utcZone_constant found) listed
  have nodup : ((List.range 10001).map fun hour : Nat => (hour : Int) * 3600000).Nodup := by
    refine List.nodup_range.map fun one two same => ?_
    have same : (one : Int) * 3600000 = two * 3600000 := same
    omega
  have within : ((List.range 10001).map fun hour : Nat => (hour : Int) * 3600000) ⊆ times := by
    intro instant member
    obtain ⟨hour, counted, rfl⟩ := List.mem_map.mp member
    exact all hour (List.mem_range.mp counted)
  have long := (List.subperm_of_subset nodup within).length_le
  rw [List.length_map, List.length_range] at long
  have few := first.few
  omega

end Hourly

end DurableExecution.Schedules

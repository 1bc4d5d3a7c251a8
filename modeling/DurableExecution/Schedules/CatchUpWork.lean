import DurableExecution.Schedules.Backfill
import DurableExecution.Schedules.CronPeriod
import DurableExecution.Schedules.TickLoop

/-
This file shows when a catch-up leaves nothing due, from its schedules, the ledger, the size of a batch and the clock: where
each of its transactions has something to report, or where its work fits in one batch.
-/

namespace DurableExecution.Schedules

section Conditions

variable (zones : ZoneTable) (queueName : String) (limit : Int)

/-- An error that marks the schedule and ends its transaction. Any other error is thrown. -/
def CronError.marks : CronError → Prop
  | .invalidSchedule _ => True
  | .invalidDate | .typeError => False

/-- A schedule of the queue that falls due until `limit`, and when. -/
structure ScheduleRow.FallsDue (row : ScheduleRow) (due : Int) : Prop where
  active : row.state = .active
  queue : row.queueName = queueName
  stored : row.nextFireAt = some due
  past : due ≤ limit

/-- No transaction of the schedule throws: its expression and each search until `limit`, with the one after it, answer or mark it. -/
structure ScheduleRow.Answers (row : ScheduleRow) : Prop where
  parses : ∀ error, parseCron zones row.cronExpression row.timeZone = .error error → error.marks
  finds : ∀ parsed, parseCron zones row.cronExpression row.timeZone = .ok parsed → ∀ instant,
    instant ≤ limit ∨ (∃ earlier, earlier ≤ limit ∧ nextCronTime zones parsed earlier = .ok instant) →
      ∀ error, nextCronTime zones parsed instant = .error error → error.marks

/-- Each transaction of the schedule has a trigger to report: the expression has a next match after each instant until `limit`,
the catch-up window reaches back to the fire time, and no instant from that on has a row in the ledger. -/
structure ScheduleTables.Reports (tables : ScheduleTables) (row : ScheduleRow) (due : Int) : Prop where
  finds : ∃ parsed, parseCron zones row.cronExpression row.timeZone = .ok parsed ∧
    ∀ instant, due ≤ instant → instant ≤ limit → ∃ next, nextCronTime zones parsed instant = .ok next
  window : row.catchUpPolicy = .all → ∀ window, row.catchUpWindowMs = some window → limit ≤ due + window
  unhandled : ∀ instant, due ≤ instant → instant ≤ limit → tables.trigger? row.id instant = none

/-- The expression of the schedule matches an instant. -/
def ScheduleRow.matchesAt (row : ScheduleRow) (instant : Int) : Bool :=
  match parseCron zones row.cronExpression row.timeZone with
  | .error _ => false
  | .ok parsed => (zones parsed.timeZone).any fun zone => decide (parsed.Matches zone instant)

/-- The matches of a schedule after its fire time until `limit`. -/
def ScheduleRow.matchesUntil (row : ScheduleRow) (due : Int) : Nat :=
  (List.range (limit - due).toNat).countP fun offset => row.matchesAt zones (due + (offset + 1 : Nat))

/-- The most transactions that a schedule takes until `limit`: one for its fire time and one for each match after it. -/
def ScheduleRow.work (row : ScheduleRow) : Nat :=
  if row.state = .active ∧ row.queueName = queueName then
    match row.nextFireAt with
    | none => 0
    | some due => if due ≤ limit then 1 + row.matchesUntil zones limit due else 0
  else 0

def ScheduleTables.work (tables : ScheduleTables) : Nat := (tables.schedules.map (ScheduleRow.work zones queueName limit)).sum

/-- Each transaction until `limit` reports a trigger. -/
def ScheduleTables.AllReport (tables : ScheduleTables) : Prop :=
  ∀ row ∈ tables.schedules, ∀ due, row.FallsDue queueName limit due → tables.Reports zones limit row due

/-- No transaction until `limit` throws, and there are no more of them than fit in a batch. -/
def ScheduleTables.FitsBatch (batchSize : Nat) (tables : ScheduleTables) : Prop :=
  (∀ row ∈ tables.schedules, ∀ due, row.FallsDue queueName limit due → row.Answers zones limit) ∧
    tables.work zones queueName limit ≤ batchSize

end Conditions

section Searches

variable {zones : ZoneTable} {schedule : CronSchedule} {zone : Zone} {candidate next now limit : Int} {steps : Nat}

/-- What a search finds matches, in any zone. -/
theorem searchCron_matches (whole : candidate % 60000 = 0) (found : searchCron schedule zone steps candidate = .ok next) :
    schedule.Matches zone next := by
  induction steps generalizing candidate with
  | zero => cases found
  | succ steps ih =>
    simp only [searchCron] at found
    split at found
    · cases found
    · split at found
      · exact ih (by omega) found
      · split at found
        · exact ih (by omega) found
        · split at found
          · exact ih (by omega) found
          · next month hour minute =>
              cases found
              simp only [Bool.or_eq_true, Bool.not_eq_true', not_or, Bool.not_eq_false] at month hour minute
              exact ⟨whole, month.1, month.2, hour, minute⟩

theorem ScheduleRow.matchesAt_next {row : ScheduleRow} {parsed : CronSchedule} {instant : Int}
    (parses : parseCron zones row.cronExpression row.timeZone = .ok parsed) (found : nextCronTime zones parsed instant = .ok next) :
    row.matchesAt zones next = true := by
  unfold nextCronTime at found
  unfold matchesAt
  rw [parses]
  dsimp only
  split at found
  · cases found
  · next zone named =>
      rw [named, Option.any_some, decide_eq_true_eq]
      exact searchCron_matches (by omega) found

/-- Where each search answers, the latest match until now is found. -/
theorem latestInstantUntil_found
    (answers : ∀ instant, candidate ≤ instant → instant ≤ now → ∃ next, nextCronTime zones schedule instant = .ok next)
    (past : candidate ≤ now) : ∃ instant, latestInstantUntil zones schedule candidate now = .ok instant ∧ candidate ≤ instant ∧
        instant ≤ now := by
  induction candidate using latestInstantUntil.induct zones schedule now with
  | case1 candidate error failed =>
    obtain ⟨next, found⟩ := answers candidate le_rfl past
    cases failed.symm.trans found
  | case2 candidate next found beyond =>
    refine ⟨candidate, ?_, le_rfl, past⟩
    rw [latestInstantUntil]
    split
    · next error failed => cases failed.symm.trans found
    · next other found' =>
        cases found.symm.trans found'
        rw [if_pos beyond]
  | case3 candidate next found within ih =>
    have later := nextCronTime_later found
    obtain ⟨instant, caught, above, below⟩ := ih (fun instant above => answers instant (by omega)) (by omega)
    refine ⟨instant, ?_, by omega, below⟩
    rw [latestInstantUntil]
    split
    · next error failed => cases failed.symm.trans found
    · next other found' =>
        cases found.symm.trans found'
        rw [if_neg within]
        exact caught

/-- What a search for the latest match answers or throws is what a search from an instant until now does. -/
theorem latestInstantUntil_cases (past : candidate ≤ now) :
    (∃ error instant, latestInstantUntil zones schedule candidate now = .error error ∧ instant ≤ now ∧
        nextCronTime zones schedule instant = .error error) ∨
      ∃ instant, latestInstantUntil zones schedule candidate now = .ok instant ∧ instant ≤ now := by
  induction candidate using latestInstantUntil.induct zones schedule now with
  | case1 candidate error failed =>
    refine .inl ⟨error, candidate, ?_, past, failed⟩
    rw [latestInstantUntil]
    split
    · next other failed' => rw [← Except.error.inj (failed.symm.trans failed')]
    · next other found => cases failed.symm.trans found
  | case2 candidate next found beyond =>
    refine .inr ⟨candidate, ?_, past⟩
    rw [latestInstantUntil]
    split
    · next error failed => cases failed.symm.trans found
    · next other found' =>
        cases found.symm.trans found'
        rw [if_pos beyond]
  | case3 candidate next found within ih =>
    have same : latestInstantUntil zones schedule candidate now = latestInstantUntil zones schedule next now := by
      rw [latestInstantUntil]
      split
      · next error failed => cases failed.symm.trans found
      · next other found' =>
          cases found.symm.trans found'
          rw [if_neg within]
    rw [same]
    exact ih (by omega)

end Searches

section Transactions

variable {zones : ZoneTable} {queueName : String} {tables tables' : ScheduleTables} {schedule row row' : ScheduleRow}
  {parsed : CronSchedule} {due now limit : Int} {outcome : Option ScheduleTrigger}

theorem selectDue_falls (selected : selectDue tables queueName unlocked now = some schedule) (upTo : now ≤ limit) :
    schedule ∈ tables.schedules ∧ ∃ due, schedule.FallsDue queueName limit due ∧ due ≤ now := by
  obtain ⟨member, active, due, stored, past⟩ := selectDue_some selected
  have able := (List.mem_filter.mp (firstRow_mem selected)).2
  simp only [Bool.and_eq_true, beq_iff_eq] at able
  exact ⟨member, due, ⟨active, able.1.2, stored, past.trans upTo⟩, past⟩

/-- What a schedule catches up with is not after `limit`, or the next match of an instant that is not; an error is one of a search. -/
theorem catchUpInstant_cases (stored : schedule.nextFireAt = some due) (past : due ≤ now) (upTo : now ≤ limit) :
    (∃ error instant, catchUpInstant zones schedule parsed now = .error error ∧ instant ≤ limit ∧
        nextCronTime zones parsed instant = .error error) ∨ ∃ instant, catchUpInstant zones schedule parsed now = .ok instant ∧
        (instant ≤ limit ∨ ∃ earlier, earlier ≤ limit ∧ nextCronTime zones parsed earlier = .ok instant) := by
  unfold catchUpInstant
  rw [stored]
  dsimp only [Option.getD_some]
  split
  · rcases latestInstantUntil_cases past with ⟨error, instant, failed, before, search⟩ | ⟨instant, found, before⟩
    · exact .inl ⟨error, instant, failed, before.trans upTo, search⟩
    · exact .inr ⟨instant, found, .inl (before.trans upTo)⟩
  · split
    · exact .inr ⟨due, rfl, .inl (past.trans upTo)⟩
    · next window _ =>
        split
        · cases search : nextCronTime zones parsed (now - window - 1) with
          | error error => exact .inl ⟨error, now - window - 1, rfl, by omega, search⟩
          | ok instant => exact .inr ⟨instant, rfl, .inr ⟨now - window - 1, by omega, search⟩⟩
        · exact .inr ⟨due, rfl, .inl (past.trans upTo)⟩

/-- A transaction of a schedule whose searches answer or mark it does not throw. -/
theorem ScheduleRow.Answers.fires (answers : schedule.Answers zones limit) (falls : schedule.FallsDue queueName limit due)
    (past : due ≤ now) (upTo : now ≤ limit) : ∃ outcome tables', fireSchedule zones tables schedule now = (.ok outcome, tables') := by
  have marked : ∀ error : CronError, error.marks → ∃ message, error = .invalidSchedule message := by
    intro error marks
    cases error with
    | invalidSchedule message => exact ⟨message, rfl⟩
    | invalidDate | typeError => exact marks.elim
  unfold fireSchedule
  cases parses : parseCron zones schedule.cronExpression schedule.timeZone with
  | error error =>
    obtain ⟨message, rfl⟩ := marked error (answers.parses error parses)
    exact ⟨_, _, rfl⟩
  | ok parsed =>
    simp only [bind, Except.bind, pure, Except.pure]
    rcases catchUpInstant_cases falls.stored past upTo with ⟨error, instant, failed, before, search⟩ | ⟨instant, caught, before⟩
    · obtain ⟨message, rfl⟩ := marked error (answers.finds parsed parses instant (.inl before) error search)
      rw [failed]
      exact ⟨_, _, rfl⟩
    · rw [caught]
      dsimp only
      cases search : nextCronTime zones parsed instant with
      | error error =>
        obtain ⟨message, rfl⟩ := marked error (answers.finds parsed parses instant before error search)
        exact ⟨_, _, rfl⟩
      | ok next => exact ⟨_, _, rfl⟩

/-- There is one match less after the next one. -/
theorem ScheduleRow.matchesUntil_next (row : ScheduleRow) (zones : ZoneTable) {next : Int} (later : due < next) (within : next ≤ limit)
    (matched : row.matchesAt zones next = true) : row.matchesUntil zones limit next < row.matchesUntil zones limit due := by
  obtain ⟨apart, between⟩ : ∃ apart : Nat, next = due + (apart + 1 : Nat) := ⟨(next - due - 1).toNat, by omega⟩
  have whole : (limit - due).toNat = apart + 1 + (limit - next).toNat := by omega
  have shifted (offset : Nat) : due + ((apart + 1 + offset + 1 : Nat) : Int) = next + (offset + 1 : Nat) := by omega
  unfold matchesUntil
  rw [whole, List.range_add, List.countP_append, List.countP_map]
  simp only [Function.comp_def, shifted]
  have counted : 0 < (List.range (apart + 1)).countP fun offset => row.matchesAt zones (due + (offset + 1 : Nat)) := by
    rw [List.countP_pos_iff]
    exact ⟨apart, List.mem_range.mpr (Nat.lt_succ_self apart), by rw [← between]; exact matched⟩
  omega

/-- A transaction leaves its schedule less work. -/
theorem Fired.work (fired : Fired zones now row row') (falls : row.FallsDue queueName limit due) :
    row'.work zones queueName limit < row.work zones queueName limit := by
  have own : row.work zones queueName limit = 1 + row.matchesUntil zones limit due := by
    rw [ScheduleRow.work, if_pos ⟨falls.active, falls.queue⟩, falls.stored]
    exact if_pos falls.past
  rw [own]
  cases fired with
  | errored buffer message =>
    rw [ScheduleRow.work, if_neg fun both => nomatch (both.1 : ScheduleState.errored = .active)]
    omega
  | @onward buffer last parsed instant next parses caught found =>
    rw [ScheduleRow.work, if_pos ⟨falls.active, falls.queue⟩]
    dsimp only
    split
    · next within =>
        have above := catchUpInstant_later falls.stored caught
        have later := nextCronTime_later found
        exact Nat.add_lt_add_left (row.matchesUntil_next zones (above.trans_lt later) within (row.matchesAt_next parses found)) 1
    · omega

/-- A transaction of a schedule with something to report reports it, and its instant is the one that the ledger gets. -/
theorem ScheduleTables.Reports.fires (reports : tables.Reports zones limit schedule due) (member : schedule ∈ tables.schedules)
    (stored : schedule.nextFireAt = some due) (past : due ≤ now) (upTo : now ≤ limit) :
    ∃ trigger tables' parsed instant, fireSchedule zones tables schedule now = (.ok (some trigger), tables') ∧
      parseCron zones schedule.cronExpression schedule.timeZone = .ok parsed ∧ catchUpInstant zones schedule parsed now = .ok instant ∧
      ∀ id scheduledFor, (tables'.trigger? id scheduledFor).isSome ↔
        (tables.trigger? id scheduledFor).isSome ∨ id = schedule.id ∧ scheduledFor = instant := by
  obtain ⟨parsed, parses, finds⟩ := reports.finds
  have caught : ∃ instant, catchUpInstant zones schedule parsed now = .ok instant ∧ due ≤ instant ∧ instant ≤ now := by
    unfold catchUpInstant
    rw [stored]
    dsimp only [Option.getD_some]
    split
    · exact latestInstantUntil_found (fun instant above below => finds instant above (below.trans upTo)) past
    · next all =>
        split
        · exact ⟨due, rfl, le_rfl, past⟩
        · next window kept =>
            have reaches := reports.window all window kept
            rw [if_neg (by omega)]
            exact ⟨due, rfl, le_rfl, past⟩
  obtain ⟨instant, caught, above, below⟩ := caught
  obtain ⟨next, onward⟩ := finds instant above (below.trans upTo)
  rcases @handleTrigger_reports tables instant schedule with ⟨reported, here, -⟩ | ⟨-, known⟩
  · refine ⟨reported, (handleTrigger tables schedule instant).2.updateSchedule schedule.id fun row =>
      { row with nextFireAt := some next, lastFiredAt := some instant }, parsed, instant, ?_, parses, caught, ?_⟩
    · unfold fireSchedule
      simp only [bind, Except.bind, pure, Except.pure, parses, caught, if_pos below, onward, here, Option.isSome_some, if_true]
    · intro id scheduledFor
      exact handleTrigger_handled member
  · rw [reports.unhandled instant above (below.trans upTo)] at known
    cases known

/-- A drain leaves rows for the same instants in the ledger. -/
theorem drainNextBuffer_handled {trigger : ScheduleTrigger} {id : ScheduleId} {scheduledFor : Int}
    (drained : drainNextBuffer tables tables queueName unlocked = (some trigger, tables')) :
    (tables'.trigger? id scheduledFor).isSome = (tables.trigger? id scheduledFor).isSome := by
  unfold drainNextBuffer at drained
  split at drained
  · cases drained
  · next schedule _ =>
      split at drained
      · cases drained
      · next instant _ =>
          cases drained
          have writes (change : TriggerRow → TriggerRow) (keeps : ∀ row, (change row).key = row.key) :
              ((tables.updateTrigger schedule.id instant change).trigger? id scheduledFor).isSome =
                (tables.trigger? id scheduledFor).isSome := by
            rw [updateTrigger_trigger? keeps]
            split
            · exact Option.isSome_map
            · rfl
          exact writes _ fun _ => rfl

end Transactions

section Invariants

variable {zones : ZoneTable} {queueName : String} {tables tables' later start : ScheduleTables} {row : ScheduleRow} {now limit : Int}
  {trigger : ScheduleTrigger} {report : List ScheduleTrigger} {left fewer count silent batchSize rounds round : Nat} {readings : Nat → Int}

/-- The row that a table lists under an id, where a write changes the row of one id. -/
theorem mem_updated {change : ScheduleRow → ScheduleRow} {id : ScheduleId} {rows : List ScheduleRow}
    (listed : row ∈ rows.map fun other => if other.id = id then change other else other) :
    (∃ other ∈ rows, other.id = id ∧ row = change other) ∨ row ∈ rows ∧ row.id ≠ id := by
  obtain ⟨other, member, rfl⟩ := List.mem_map.mp listed
  by_cases own : other.id = id
  · rw [if_pos own]
    exact .inl ⟨other, member, own, rfl⟩
  · rw [if_neg own]
    exact .inr ⟨member, own⟩

/-- Where each transaction has a trigger to report, the next one reports it and leaves the tables so. -/
theorem ScheduleTables.AllReport.fires (reports : tables.AllReport zones queueName limit) (keyed : tables.Keyed) (upTo : now ≤ limit)
    (due : tables.anyDue queueName now = true) : ∃ trigger tables',
      fireNextDue zones tables queueName unlocked now = (.ok (some trigger), tables') ∧ tables'.AllReport zones queueName limit := by
  obtain ⟨schedule, selected⟩ := selectDue_found due
  obtain ⟨member, instant, falls, past⟩ := selectDue_falls selected upTo
  have own := reports schedule member instant falls
  obtain ⟨trigger, tables', parsed, fired, step, parses, caught, handled⟩ := own.fires member falls.stored past upTo
  refine ⟨trigger, tables', by rw [fireNextDue, selected]; exact step, fun row' member' due' falls' => ?_⟩
  obtain ⟨change, ids, left, same⟩ := fireSchedule_update step
  rw [same] at member'
  rcases mem_updated member' with ⟨other, listed, isOwn, rfl⟩ | ⟨listed, apart⟩
  · obtain rfl : other = schedule := List.inj_on_of_nodup_map keyed listed member isOwn
    clear member'
    generalize change other = row' at left falls'
    cases left with
    | errored buffer message => cases falls'.active
    | @onward buffer last parsed' fired' next parses' caught' found =>
      cases parses.symm.trans parses'
      cases caught.symm.trans caught'
      cases falls'.stored
      -- the next fire time is after the instant that is handled now
      have above := catchUpInstant_later falls.stored caught
      have later := nextCronTime_later found
      obtain ⟨parsed', parses', finds⟩ := own.finds
      refine ⟨⟨parsed', parses', fun instant from' => finds instant (by omega)⟩, fun all window kept => ?_,
        fun scheduledFor from' until' => ?_⟩
      · have reaches := own.window all window kept
        omega
      · have before := own.unhandled scheduledFor (by omega) until'
        rw [← Option.not_isSome_iff_eq_none] at before ⊢
        rw [handled]
        rintro (known | ⟨-, equal⟩)
        · exact before known
        · omega
  · have others := reports row' listed due' falls'
    refine ⟨others.finds, others.window, fun scheduledFor from' until' => ?_⟩
    have before := others.unhandled scheduledFor from' until'
    rw [← Option.not_isSome_iff_eq_none] at before ⊢
    rw [handled]
    rintro (known | ⟨equal, -⟩)
    · exact before known
    · exact apart equal

theorem ScheduleTables.AllReport.drains (reports : tables.AllReport zones queueName limit)
    (drained : drainNextBuffer tables tables queueName unlocked = (some trigger, tables')) : tables'.AllReport zones queueName limit := by
  obtain ⟨row, -, -, same⟩ := drainNextBuffer_update drained
  have keeps {other : ScheduleRow} {due : Int} (own : tables.Reports zones limit other due) : tables'.Reports zones limit other due := by
    refine ⟨own.finds, own.window, fun scheduledFor from' until' => ?_⟩
    have before := own.unhandled scheduledFor from' until'
    rw [← Option.not_isSome_iff_eq_none] at before ⊢
    rw [drainNextBuffer_handled drained]
    exact before
  intro row' member due falls
  rw [same] at member
  rcases mem_updated member with ⟨other, listed, -, rfl⟩ | ⟨listed, -⟩
  · obtain ⟨finds, window, unhandled⟩ := keeps (reports other listed due ⟨falls.active, falls.queue, falls.stored, falls.past⟩)
    exact ⟨finds, window, unhandled⟩
  · exact keeps (reports row' listed due falls)

/-- Where no transaction throws, the next one leaves less work and still none that throws. -/
theorem ScheduleTables.FitsBatch.fires (fits : tables.FitsBatch zones queueName limit left) (keyed : tables.Keyed) (upTo : now ≤ limit)
    (due : tables.anyDue queueName now = true) : ∃ outcome tables' fewer,
      fireNextDue zones tables queueName unlocked now = (.ok outcome, tables') ∧ left = fewer + 1 ∧
        tables'.FitsBatch zones queueName limit fewer := by
  obtain ⟨schedule, selected⟩ := selectDue_found due
  obtain ⟨member, instant, falls, past⟩ := selectDue_falls selected upTo
  obtain ⟨answers, bound⟩ := fits
  have own := answers schedule member instant falls
  obtain ⟨outcome, tables', step⟩ : ∃ outcome tables', fireSchedule zones tables schedule now = (.ok outcome, tables') :=
    own.fires falls past upTo
  obtain ⟨change, ids, left', same⟩ := fireSchedule_update step
  have less := sum_update (ScheduleRow.work zones queueName limit) change member keyed (left'.work falls)
  rw [← same] at less
  change tables'.work zones queueName limit < tables.work zones queueName limit at less
  obtain ⟨fewer, rfl⟩ : ∃ fewer, left = fewer + 1 := ⟨left - 1, by omega⟩
  refine ⟨outcome, tables', fewer, by rw [fireNextDue, selected]; exact step, rfl, fun row' member' due' falls' => ?_, by omega⟩
  rw [same] at member'
  rcases mem_updated member' with ⟨other, listed, isOwn, rfl⟩ | ⟨listed, -⟩
  · obtain rfl : other = schedule := List.inj_on_of_nodup_map keyed listed member isOwn
    clear member' less
    generalize change other = row' at left' falls'
    cases left' with
    | errored buffer message => cases falls'.active
    | onward buffer last parses caught found => exact ⟨own.parses, own.finds⟩
  · exact answers row' listed due' falls'

theorem ScheduleTables.FitsBatch.drains (fits : tables.FitsBatch zones queueName limit batchSize)
    (drained : drainNextBuffer tables tables queueName unlocked = (some trigger, tables')) :
    tables'.FitsBatch zones queueName limit batchSize := by
  obtain ⟨row, -, -, same⟩ := drainNextBuffer_update drained
  obtain ⟨answers, bound⟩ := fits
  refine ⟨fun row' member due falls => ?_, ?_⟩
  · rw [same] at member
    rcases mem_updated member with ⟨other, listed, -, rfl⟩ | ⟨listed, -⟩
    · obtain ⟨parses, finds⟩ := answers other listed due ⟨falls.active, falls.queue, falls.stored, falls.past⟩
      exact ⟨parses, finds⟩
    · exact answers row' listed due falls
  · have unchanged : tables'.work zones queueName limit = tables.work zones queueName limit := by
      unfold ScheduleTables.work
      rw [same, List.map_map]
      refine congrArg List.sum (List.map_congr_left fun other _ => ?_)
      rw [Function.comp_apply]
      split <;> rfl
    omega

/-- What each transaction and each drain of a catch-up keeps. -/
def ScheduleTables.Manages (zones : ZoneTable) (queueName : String) (limit : Int) (batchSize : Nat) (tables : ScheduleTables) : Prop :=
  tables.Keyed ∧ (tables.AllReport zones queueName limit ∨ tables.FitsBatch zones queueName limit batchSize)

theorem ScheduleTables.Manages.drained (manages : tables.Manages zones queueName limit batchSize) :
    (drainBuffers queueName rounds tables).2.Manages zones queueName limit batchSize := by
  induction rounds generalizing tables with
  | zero => exact manages
  | succ rounds ih =>
    rw [drainBuffers]
    split
    · exact manages
    · next drained tables' step =>
        have cheaper : Cheaper limit tables tables' := drainNextBuffer_cheaper step
        exact ih ⟨cheaper.keyed manages.1, manages.2.imp (·.drains step) (·.drains step)⟩

/-- The transactions of a tick, where each reports: they go on until the batch is used up or nothing is due. -/
theorem ScheduleTables.AllReport.ends (reports : tables.AllReport zones queueName limit) (keyed : tables.Keyed) (upTo : now ≤ limit) :
    ∃ count later, Fires zones queueName now count 0 tables later ∧ (count ≤ left ∧ later.anyDue queueName now = false ∨ count = left) := by
  induction left generalizing tables with
  | zero => exact ⟨0, tables, .refl, .inr rfl⟩
  | succ left ih =>
    cases due : tables.anyDue queueName now with
    | false => exact ⟨0, tables, .refl, .inl ⟨Nat.zero_le _, due⟩⟩
    | true =>
      obtain ⟨trigger, tables', step, reports'⟩ := reports.fires keyed upTo due
      obtain ⟨count, later, fires, stops⟩ := ih reports' ((fireNextDue_cheaper upTo due step).keyed keyed)
      refine ⟨count + 1, later, .reports due step fires, ?_⟩
      exact stops.imp (fun ⟨few, idle⟩ => ⟨by omega, idle⟩) fun all => by omega

/-- The transactions of a tick, where their work fits in the batch: they go on until nothing is due. -/
theorem ScheduleTables.FitsBatch.ends (fits : tables.FitsBatch zones queueName limit left) (keyed : tables.Keyed) (upTo : now ≤ limit) :
    ∃ count silent later, Fires zones queueName now count silent tables later ∧ count ≤ left ∧ later.anyDue queueName now = false := by
  induction left generalizing tables with
  | zero =>
    cases due : tables.anyDue queueName now with
    | false => exact ⟨0, 0, tables, .refl, le_rfl, due⟩
    | true =>
      obtain ⟨_, _, fewer, -, absurd', -⟩ := fits.fires keyed upTo due
      cases absurd'
  | succ left ih =>
    cases due : tables.anyDue queueName now with
    | false => exact ⟨0, 0, tables, .refl, Nat.zero_le _, due⟩
    | true =>
      obtain ⟨outcome, tables', fewer, step, more, fits'⟩ := fits.fires keyed upTo due
      cases more
      obtain ⟨count, silent, later, fires, few, idle⟩ := ih fits' ((fireNextDue_cheaper upTo due step).keyed keyed)
      cases outcome with
      | none => exact ⟨count + 1, silent + 1, later, .silent due step fires, by omega, idle⟩
      | some trigger => exact ⟨count + 1, silent, later, .reports due step fires, by omega, idle⟩

theorem ScheduleTables.Manages.suffices (manages : tables.Manages zones queueName limit batchSize) (upTo : now ≤ limit) :
    Suffices zones queueName batchSize now tables := by
  have drained : (drainBuffers queueName tables.schedules.length tables).2.Manages zones queueName limit batchSize := manages.drained
  obtain ⟨keyed, reports | fits⟩ := drained
  · obtain ⟨count, later, fires, stops⟩ : ∃ count later, Fires zones queueName now count 0
        (drainBuffers queueName tables.schedules.length tables).2 later ∧
        (count ≤ batchSize ∧ later.anyDue queueName now = false ∨ count = batchSize) := reports.ends keyed upTo
    exact ⟨count, 0, later, fires, stops.imp id fun all => ⟨all, Nat.zero_le _⟩⟩
  · obtain ⟨count, silent, later, fires, few, idle⟩ := fits.ends keyed upTo
    exact ⟨count, silent, later, fires, .inl ⟨few, idle⟩⟩

theorem ScheduleTables.FitsBatch.mono (fits : tables.FitsBatch zones queueName limit fewer) (less : fewer ≤ batchSize) :
    tables.FitsBatch zones queueName limit batchSize := ⟨fits.1, fits.2.trans less⟩

/-- A transaction that is made keeps what the tables manage. -/
theorem ScheduleTables.Manages.fired {outcome : Option ScheduleTrigger} (manages : tables.Manages zones queueName limit batchSize)
    (upTo : now ≤ limit) (due : tables.anyDue queueName now = true)
    (step : fireNextDue zones tables queueName unlocked now = (.ok outcome, tables')) :
        tables'.Manages zones queueName limit batchSize := by
  refine ⟨(fireNextDue_cheaper upTo due step).keyed manages.1, ?_⟩
  rcases manages.2 with reports | fits
  · obtain ⟨trigger, tables'', step', reports'⟩ := reports.fires manages.1 upTo due
    cases step.symm.trans step'
    exact .inl reports'
  · obtain ⟨outcome', tables'', fewer, step', more, fits'⟩ := fits.fires manages.1 upTo due
    cases step.symm.trans step'
    exact .inr (fits'.mono (by omega))

theorem ScheduleTables.Manages.fires (manages : tables.Manages zones queueName limit batchSize) (upTo : now ≤ limit)
    (fires : Fires zones queueName now count silent tables later) : later.Manages zones queueName limit batchSize := by
  induction fires with
  | refl => exact manages
  | reports due step _ ih => exact ih (manages.fired upTo due step)
  | silent due step _ ih => exact ih (manages.fired upTo due step)

/-- Before each tick of a catch-up the tables are still within the condition that they started with. -/
theorem ScheduleTables.Manages.before (manages : start.Manages zones queueName limit batchSize) (bounded : ∀ round, readings round ≤ limit)
    (before : BeforeTick zones queueName batchSize readings start round tables) : tables.Manages zones queueName limit batchSize := by
  induction before with
  | first => exact manages
  | next _ ticked _ ih =>
    obtain ⟨count, silent, fires, -⟩ := tick_fires ticked
    exact ih.drained.fires (bounded _) fires

end Invariants

end DurableExecution.Schedules

import Mathlib.Algebra.GroupWithZero.Nat
import DurableExecution.Schedules.CatchUp

/-
This file models the loops of `tick` and `catchUp`, for a manager whose schedules nobody else
holds, and shows when a catch-up leaves nothing due.
-/

namespace DurableExecution.Schedules

section Loops

variable (zones : ZoneTable) (queueName : String)

/-- No other process holds a row. -/
def unlocked : ScheduleId → Bool := fun _ => false

/-- The first loop of `tick`, where nothing comes between what a drain looks at and what it locks. It has
as many rounds as there are schedules, since each round empties a buffer and nothing fills one. -/
def drainBuffers : Nat → ScheduleTables → List ScheduleTrigger × ScheduleTables
  | 0, tables => ([], tables)
  | rounds + 1, tables =>
    match drainNextBuffer tables tables queueName unlocked with
    | (none, _) => ([], tables)
    | (some drained, tables) =>
      let (triggers, tables) := drainBuffers rounds tables
      (drained :: triggers, tables)

/-- The query for what remains due. -/
def ScheduleTables.anyDue (tables : ScheduleTables) (now : Int) : Bool :=
  tables.schedules.any fun row =>
    row.state == .active && row.nextFireAt.any (fun due => due ≤ now) && row.queueName == queueName

/-- The second loop of `tick`, with what is left of its batch. -/
def fireDue (now : Int) : Nat → ScheduleTables → Except CronError (List ScheduleTrigger × ScheduleTables)
  | 0, tables => .ok ([], tables)
  | left + 1, tables =>
    match fireNextDue zones tables queueName unlocked now with
    | (.error error, _) => .error error
    | (.ok none, tables) => if !tables.anyDue queueName now then .ok ([], tables) else fireDue now left tables
    | (.ok (some outcome), tables) => do
      let (triggers, tables) ← fireDue now left tables
      pure (outcome :: triggers, tables)

def tick (batchSize : Nat) (now : Int) (tables : ScheduleTables) :
    Except CronError (List ScheduleTrigger × ScheduleTables) := do
  let (drained, tables) := drainBuffers queueName tables.schedules.length tables
  let (triggers, tables) ← fireDue zones queueName now batchSize tables
  pure (drained ++ triggers, tables)

end Loops

section Conditions

variable (zones : ZoneTable) (queueName : String)

/-- Transactions of `fireNextDue` while something is due: how many, and how many of them report
nothing. -/
inductive Fires (now : Int) : Nat → Nat → ScheduleTables → ScheduleTables → Prop where
  | refl {tables : ScheduleTables} : Fires now 0 0 tables tables
  | reports {count silent : Nat} {tables tables' later : ScheduleTables} {trigger : ScheduleTrigger}
      (due : tables.anyDue queueName now = true)
      (fired : fireNextDue zones tables queueName unlocked now = (.ok (some trigger), tables'))
      (rest : Fires now count silent tables' later) : Fires now (count + 1) silent tables later
  | silent {count silent : Nat} {tables tables' later : ScheduleTables} (due : tables.anyDue queueName now = true)
      (fired : fireNextDue zones tables queueName unlocked now = (.ok none, tables'))
      (rest : Fires now count silent tables' later) : Fires now (count + 1) (silent + 1) tables later

/-- A tick can handle all that is due after its drains within its batch, or it uses its batch up on
transactions of which no more report nothing than it drained buffers. No transaction fails. -/
def Suffices (batchSize : Nat) (now : Int) (tables : ScheduleTables) : Prop :=
  ∃ count silent later, Fires zones queueName now count silent
      (drainBuffers queueName tables.schedules.length tables).2 later ∧
    (count ≤ batchSize ∧ later.anyDue queueName now = false ∨
      count = batchSize ∧ silent ≤ (drainBuffers queueName tables.schedules.length tables).1.length)

/-- The tables before each tick of a catch-up. -/
inductive BeforeTick (batchSize : Nat) (readings : Nat → Int) (start : ScheduleTables) : Nat → ScheduleTables → Prop where
  | first : BeforeTick batchSize readings start 0 start
  | next {round : Nat} {tables later : ScheduleTables} {report : List ScheduleTrigger}
      (before : BeforeTick batchSize readings start round tables)
      (ticked : tick zones queueName batchSize (readings round) tables = .ok (report, later))
      (full : batchSize ≤ report.length) : BeforeTick batchSize readings start (round + 1) later

end Conditions

section Costs

variable {zones : ZoneTable} {queueName : String} {tables tables' : ScheduleTables} {schedule row : ScheduleRow}
  {scheduledFor now limit : Int} {outcome : Option ScheduleTrigger}

/-- How far an active schedule is behind a time, and whether it has a buffered trigger. -/
def ScheduleRow.cost (limit : Int) (row : ScheduleRow) : Nat :=
  2 * (if row.state = .active then (row.nextFireAt.map fun due => (limit + 1 - due).toNat).getD 0 else 0) +
    row.bufferedFor.isSome.toNat

def ScheduleTables.cost (tables : ScheduleTables) (limit : Int) : Nat := (tables.schedules.map (ScheduleRow.cost limit)).sum

/-- The primary key of `schedules`. -/
def ScheduleTables.Keyed (tables : ScheduleTables) : Prop := (tables.schedules.map ScheduleRow.id).Nodup

/-- An update of the row of one id makes a sum over the rows less, if it makes that of the row less. -/
theorem sum_update (cost : ScheduleRow → Nat) (change : ScheduleRow → ScheduleRow) {rows : List ScheduleRow}
    (member : row ∈ rows) (keyed : (rows.map ScheduleRow.id).Nodup) (less : cost (change row) < cost row) :
    ((rows.map fun other => if other.id = row.id then change other else other).map cost).sum < (rows.map cost).sum := by
  induction rows with
  | nil => exact absurd member List.not_mem_nil
  | cons first rest ih =>
    rw [List.map_cons, List.nodup_cons] at keyed
    simp only [List.map_cons, List.sum_cons]
    by_cases own : first = row
    · have others : rest.map (fun other => if other.id = row.id then change other else other) = rest := by
        refine (List.map_congr_left fun other listed => ?_).trans (List.map_id rest)
        rw [if_neg]
        · rfl
        · intro equal
          exact keyed.1 (own ▸ equal ▸ List.mem_map_of_mem listed)
      rw [others, own, if_pos rfl]
      omega
    · have listed := (List.mem_cons.mp member).resolve_left (Ne.symm own)
      have apart : first.id ≠ row.id := by
        intro equal
        exact keyed.1 (equal ▸ List.mem_map_of_mem listed)
      rw [if_neg apart]
      have less' := ih listed keyed.2
      omega

/-- A write that makes one schedule cheaper. -/
structure Cheaper (limit : Int) (tables tables' : ScheduleTables) : Prop where
  keyed : tables.Keyed → tables'.Keyed
  count : tables'.schedules.length = tables.schedules.length
  less : tables.Keyed → tables'.cost limit < tables.cost limit

theorem Cheaper.update (change : ScheduleRow → ScheduleRow) (member : row ∈ tables.schedules)
    (ids : ∀ other, (change other).id = other.id) (less : (change row).cost limit < row.cost limit)
    (same : tables'.schedules = tables.schedules.map fun other => if other.id = row.id then change other else other) :
    Cheaper limit tables tables' := by
  refine ⟨fun keyed => ?_, by rw [same, List.length_map], fun keyed => ?_⟩
  · unfold ScheduleTables.Keyed at keyed ⊢
    rw [same, List.map_map]
    have keeps : (ScheduleRow.id ∘ fun other => if other.id = row.id then change other else other) = ScheduleRow.id := by
      funext other
      rw [Function.comp_apply]
      split
      · exact ids other
      · rfl
    rwa [keeps]
  · unfold ScheduleTables.cost
    rw [same]
    exact sum_update _ _ member keyed less

/-- A transaction of a trigger sets no column of a schedule but its buffered trigger. -/
theorem handleTrigger_schedules : ∃ buffer : Option Int → Option Int,
    (handleTrigger tables schedule scheduledFor).2.schedules = tables.schedules.map fun row =>
      if row.id = schedule.id then { row with bufferedFor := buffer row.bufferedFor } else row := by
  have unchanged : tables.schedules = tables.schedules.map fun row =>
      if row.id = schedule.id then { row with bufferedFor := id row.bufferedFor } else row := by
    refine ((List.map_congr_left fun row _ => ?_).trans (List.map_id _)).symm
    exact ite_self row
  have recorded (tables : ScheduleTables) (id : ScheduleId) (outcome : TriggerOutcome) (runId : Option Engine.RunId) :
      (recordTrigger tables id scheduledFor outcome runId).schedules = tables.schedules := by
    unfold recordTrigger
    split <;> rfl
  unfold handleTrigger
  repeat' split
  · exact ⟨id, unchanged⟩
  · next runId started same =>
      refine ⟨id, ?_⟩
      dsimp only
      rw [recorded]
      exact (congrArg (fun answer : Engine.RunId × ScheduleTables => answer.2.schedules) same).symm.trans unchanged
  · refine ⟨fun _ => some scheduledFor, ?_⟩
    dsimp only
    rw [recorded]
    unfold replaceBuffered
    split <;> rfl
  · refine ⟨id, ?_⟩
    dsimp only
    rw [recorded]
    exact unchanged

/-- The instant that a schedule catches up with is not before the one that it stores. -/
theorem catchUpInstant_later {parsed : CronSchedule} {due instant : Int} (stored : schedule.nextFireAt = some due)
    (caught : catchUpInstant zones schedule parsed now = .ok instant) : due ≤ instant := by
  have until' : ∀ latest, latestInstantUntil zones parsed latest now = .ok instant → latest ≤ instant := by
    intro latest
    induction latest using latestInstantUntil.induct zones parsed now with
    | case1 latest error failed =>
      intro caught
      rw [latestInstantUntil] at caught
      split at caught
      · cases caught
      · next next' found =>
          cases failed.symm.trans found
    | case2 latest next' found beyond =>
      intro caught
      rw [latestInstantUntil] at caught
      split at caught
      · cases caught
      · next next'' found' =>
          cases found.symm.trans found'
          rw [if_pos beyond] at caught
          cases caught
          exact le_rfl
    | case3 latest next' found within ih =>
      intro caught
      rw [latestInstantUntil] at caught
      split at caught
      · cases caught
      · next next'' found' =>
          cases found.symm.trans found'
          rw [if_neg within] at caught
          exact (nextCronTime_later found).le.trans (ih caught)
  unfold catchUpInstant at caught
  rw [stored] at caught
  dsimp only [Option.getD_some] at caught
  split at caught
  · exact until' due caught
  · split at caught
    · cases caught
      exact le_rfl
    · split at caught
      · next window missed =>
          have later := nextCronTime_later caught
          omega
      · cases caught
        exact le_rfl

/-- What a transaction leaves of the schedule that it fires. -/
inductive Fired (zones : ZoneTable) (now : Int) (row : ScheduleRow) : ScheduleRow → Prop where
  | errored (buffer : Option Int) (message : String) :
      Fired zones now row { row with bufferedFor := buffer, state := .errored, error := some message, nextFireAt := none }
  | onward (buffer last : Option Int) {parsed : CronSchedule} {instant next : Int}
      (parses : parseCron zones row.cronExpression row.timeZone = .ok parsed)
      (caught : catchUpInstant zones row parsed now = .ok instant) (found : nextCronTime zones parsed instant = .ok next) :
      Fired zones now row { row with bufferedFor := buffer, nextFireAt := some next, lastFiredAt := last }

/-- A transaction that does not fail writes the row of its schedule alone. -/
theorem fireSchedule_update (fired : fireSchedule zones tables schedule now = (.ok outcome, tables')) :
    ∃ change : ScheduleRow → ScheduleRow, (∀ other, (change other).id = other.id) ∧ Fired zones now schedule (change schedule) ∧
      tables'.schedules = tables.schedules.map fun other => if other.id = schedule.id then change other else other := by
  unfold fireSchedule at fired
  split at fired
  · next message failed =>
      cases fired
      exact ⟨fun row => { row with state := .errored, error := some message, nextFireAt := none }, fun _ => rfl,
        .errored schedule.bufferedFor message, rfl⟩
  · cases fired
  · next parsed instant caught =>
      obtain ⟨parses, caught⟩ : parseCron zones schedule.cronExpression schedule.timeZone = .ok parsed ∧
          catchUpInstant zones schedule parsed now = .ok instant := by
        simp only [bind, Except.bind, pure, Except.pure] at caught
        split at caught
        · cases caught
        · next parses =>
            split at caught
            · cases caught
            · next found =>
                cases caught
                exact ⟨parses, found⟩
      have writes : ∃ buffer : Option Int → Option Int,
          (if instant ≤ now then handleTrigger tables schedule instant else (none, tables)).2.schedules =
            tables.schedules.map fun row =>
              if row.id = schedule.id then { row with bufferedFor := buffer row.bufferedFor } else row := by
        split
        · exact handleTrigger_schedules
        · refine ⟨id, ((List.map_congr_left fun row _ => ?_).trans (List.map_id _)).symm⟩
          exact ite_self row
      obtain ⟨buffer, writes⟩ := writes
      generalize (if instant ≤ now then handleTrigger tables schedule instant else (none, tables)) = outcome'
        at fired writes
      have twice (change : ScheduleRow → ScheduleRow) (keeps : ∀ row, (change row).id = row.id) :
          (outcome'.2.updateSchedule schedule.id change).schedules = tables.schedules.map fun row =>
            if row.id = schedule.id then change { row with bufferedFor := buffer row.bufferedFor } else row := by
        unfold ScheduleTables.updateSchedule
        dsimp only
        rw [writes, List.map_map]
        refine List.map_congr_left fun row _ => ?_
        rw [Function.comp_apply]
        by_cases same : row.id = schedule.id
        · rw [if_pos same, if_pos same, if_pos same]
        · rw [if_neg same, if_neg same, if_neg same]
      dsimp only at fired
      split at fired
      · next message failed =>
          cases fired
          refine ⟨fun row => { { row with bufferedFor := buffer row.bufferedFor } with
            state := .errored, error := some message, nextFireAt := none }, fun _ => rfl, .errored _ message, ?_⟩
          exact twice _ fun _ => rfl
      · cases fired
      · next next' onward =>
          cases fired
          refine ⟨fun row => { { row with bufferedFor := buffer row.bufferedFor } with
            nextFireAt := some next'
            lastFiredAt := if outcome'.1.isSome then some instant else row.lastFiredAt }, fun _ => rfl,
              .onward _ _ parses caught onward, ?_⟩
          exact twice _ fun _ => rfl

/-- A transaction that fires a schedule without failing makes it cheaper. -/
theorem fireSchedule_cheaper (member : schedule ∈ tables.schedules) (active : schedule.state = .active) {due : Int}
    (stored : schedule.nextFireAt = some due) (past : due ≤ now) (upTo : now ≤ limit)
    (fired : fireSchedule zones tables schedule now = (.ok outcome, tables')) : Cheaper limit tables tables' := by
  obtain ⟨change, ids, left, same⟩ := fireSchedule_update fired
  refine .update change member ids ?_ same
  have own : schedule.cost limit = 2 * (limit + 1 - due).toNat + schedule.bufferedFor.isSome.toNat := by
    rw [ScheduleRow.cost, if_pos active, stored]
    rfl
  rw [own]
  generalize change schedule = row' at left ⊢
  cases left with
  | errored buffer message =>
    -- a schedule that is marked as errored is not due at all
    rw [ScheduleRow.cost, if_neg fun same => nomatch (same : ScheduleState.errored = .active)]
    have flag := Bool.toNat_le buffer.isSome
    change 2 * 0 + buffer.isSome.toNat < _
    omega
  | @onward buffer last parsed instant next parses caught found =>
    have after := catchUpInstant_later stored caught
    have later := nextCronTime_later found
    rw [ScheduleRow.cost, if_pos active]
    have closer : (limit + 1 - next).toNat < (limit + 1 - due).toNat := by omega
    have flag := Bool.toNat_le buffer.isSome
    change 2 * (limit + 1 - next).toNat + buffer.isSome.toNat < _
    omega

/-- A drain empties the buffer of a schedule. -/
theorem drainNextBuffer_update {trigger : ScheduleTrigger}
    (drained : drainNextBuffer tables tables queueName unlocked = (some trigger, tables')) :
    ∃ row ∈ tables.schedules, row.bufferedFor.isSome = true ∧ tables'.schedules = tables.schedules.map fun other =>
      if other.id = row.id then { other with bufferedFor := none } else other := by
  unfold drainNextBuffer at drained
  split at drained
  · cases drained
  · next schedule selected =>
      obtain ⟨member, -⟩ := selectBuffered_some selected
      split at drained
      · cases drained
      · next scheduledFor waiting =>
          cases drained
          exact ⟨schedule, member, by rw [waiting]; rfl, rfl⟩

theorem drainNextBuffer_cheaper {trigger : ScheduleTrigger}
    (drained : drainNextBuffer tables tables queueName unlocked = (some trigger, tables')) : Cheaper limit tables tables' := by
  obtain ⟨row, member, waits, same⟩ := drainNextBuffer_update drained
  refine .update (fun other => { other with bufferedFor := none }) member (fun _ => rfl) ?_ same
  rw [ScheduleRow.cost, ScheduleRow.cost, waits]
  exact Nat.lt_succ_self _

end Costs

section Ticks

variable {zones : ZoneTable} {queueName : String} {tables tables' later start : ScheduleTables}
  {now limit : Int} {outcome : Option ScheduleTrigger} {triggers report : List ScheduleTrigger}
  {left count silent batchSize round rounds : Nat} {readings : Nat → Int}

theorem anyDue_iff : tables.anyDue queueName now = false ↔ ∀ row ∈ tables.schedules, row.state = .active →
    row.queueName = queueName → ∀ due, row.nextFireAt = some due → now < due := by
  rw [ScheduleTables.anyDue, List.any_eq_false]
  constructor
  · intro none' row member active own due stored
    have undue := none' row member
    simp only [active, own, stored, beq_self_eq_true, Option.any_some, Bool.true_and, Bool.and_true,
      decide_eq_true_eq] at undue
    omega
  · intro later row member able
    simp only [Bool.and_eq_true, beq_iff_eq] at able
    obtain ⟨⟨active, past⟩, own⟩ := able
    cases stored : row.nextFireAt with
    | none =>
      rw [stored] at past
      cases past
    | some due =>
      rw [stored] at past
      exact absurd (of_decide_eq_true past) (not_le.mpr (later row member active own due stored))

/-- A transaction selects a schedule exactly when one is due. -/
theorem fireNextDue_idle (idle : tables.anyDue queueName now = false) :
    fireNextDue zones tables queueName unlocked now = (.ok none, tables) := by
  have nothing : selectDue tables queueName unlocked now = none := by
    cases selected : selectDue tables queueName unlocked now with
    | none => rfl
    | some schedule =>
      obtain ⟨member, active, due, stored, past⟩ := selectDue_some selected
      have able := (List.mem_filter.mp (firstRow_mem selected)).2
      simp only [Bool.and_eq_true, beq_iff_eq] at able
      have later := anyDue_iff.mp idle schedule member active able.1.2 due stored
      omega
  rw [fireNextDue, nothing]

theorem selectDue_found (due : tables.anyDue queueName now = true) : ∃ schedule, selectDue tables queueName unlocked now = some schedule := by
  cases selected : selectDue tables queueName unlocked now with
  | some schedule => exact ⟨schedule, rfl⟩
  | none =>
    exfalso
    have idle : tables.anyDue queueName now = false := by
      rw [anyDue_iff]
      intro row member active own instant stored
      by_contra past
      have able : row ∈ tables.schedules.filter fun row => row.state == .active &&
          row.nextFireAt.any (fun due => due ≤ now) && row.queueName == queueName && !unlocked row.id := by
        refine List.mem_filter.mpr ⟨member, ?_⟩
        simp only [active, own, stored, beq_self_eq_true, Option.any_some, Bool.true_and, Bool.and_true, unlocked,
          Bool.not_false, decide_eq_true_eq]
        omega
      have sorted := (List.perm_insertionSort (fun one two : ScheduleRow =>
        (one.nextFireAt).getD 0 < (two.nextFireAt).getD 0 ∨
          (one.nextFireAt).getD 0 = (two.nextFireAt).getD 0 ∧ one.id ≤ two.id) _).mem_iff.mpr able
      have emptied := List.head?_eq_none_iff.mp selected
      unfold orderRows at emptied
      rw [emptied] at sorted
      exact absurd sorted List.not_mem_nil
    rw [idle] at due
    cases due

theorem fireNextDue_cheaper (upTo : now ≤ limit) (due : tables.anyDue queueName now = true)
    (fired : fireNextDue zones tables queueName unlocked now = (.ok outcome, tables')) : Cheaper limit tables tables' := by
  obtain ⟨schedule, selected⟩ := selectDue_found due
  rw [fireNextDue, selected] at fired
  obtain ⟨member, active, instant, stored, past⟩ := selectDue_some selected
  exact fireSchedule_cheaper member active stored past upTo fired

/-- The second loop makes transactions until nothing is due or its batch is used up. -/
theorem fireDue_fires (fired : fireDue zones queueName now left tables = .ok (triggers, later)) :
    ∃ count silent, Fires zones queueName now count silent tables later ∧ triggers.length + silent = count ∧
      (count ≤ left ∧ later.anyDue queueName now = false ∨ count = left) := by
  induction left generalizing tables triggers with
  | zero =>
    cases fired
    exact ⟨0, 0, .refl, rfl, .inr rfl⟩
  | succ left ih =>
    cases due : tables.anyDue queueName now with
    | false =>
      rw [fireDue, fireNextDue_idle due] at fired
      dsimp only at fired
      rw [due, Bool.not_false, if_pos rfl] at fired
      cases fired
      exact ⟨0, 0, .refl, rfl, .inl ⟨Nat.zero_le _, due⟩⟩
    | true =>
      rw [fireDue] at fired
      split at fired
      · cases fired
      · next tables' step =>
          split at fired
          · next idle =>
              cases fired
              refine ⟨1, 1, .silent due step .refl, rfl, .inl ⟨by omega, ?_⟩⟩
              simpa using idle
          · obtain ⟨count, silent, fires, counted, stops⟩ := ih fired
            refine ⟨count + 1, silent + 1, .silent due step fires, by omega, ?_⟩
            exact stops.imp (fun ⟨few, idle⟩ => ⟨by omega, idle⟩) fun all => by omega
      · next outcome tables' step =>
          simp only [bind, Except.bind, pure, Except.pure] at fired
          split at fired
          · cases fired
          · next answer rest =>
              cases fired
              obtain ⟨count, silent, fires, counted, stops⟩ := ih rest
              refine ⟨count + 1, silent, .reports due step fires, by rw [List.length_cons]; omega, ?_⟩
              exact stops.imp (fun ⟨few, idle⟩ => ⟨by omega, idle⟩) fun all => by omega

/-- Where so many transactions succeed, the loop makes them. -/
theorem Fires.loop (fires : Fires zones queueName now count silent tables later)
    (stops : count ≤ left ∧ later.anyDue queueName now = false ∨ count = left) :
    ∃ triggers, fireDue zones queueName now left tables = .ok (triggers, later) ∧ triggers.length + silent = count := by
  induction fires generalizing left with
  | @refl tables =>
    cases left with
    | zero => exact ⟨[], rfl, rfl⟩
    | succ left =>
      have idle : tables.anyDue queueName now = false :=
        stops.elim (fun ⟨_, idle⟩ => idle) fun all => absurd all (Nat.succ_ne_zero left).symm
      refine ⟨[], ?_, rfl⟩
      rw [fireDue, fireNextDue_idle idle]
      dsimp only
      rw [idle]
      rfl
  | @reports count silent tables tables' later trigger due step rest ih =>
    obtain ⟨left, rfl⟩ : ∃ more, left = more + 1 := ⟨left - 1, by omega⟩
    obtain ⟨triggers, fired, counted⟩ := @ih left
      (stops.imp (fun ⟨few, idle⟩ => ⟨by omega, idle⟩) fun all => by omega)
    refine ⟨trigger :: triggers, ?_, by rw [List.length_cons]; omega⟩
    rw [fireDue, step]
    dsimp only
    rw [fired]
    rfl
  | @silent count silent tables tables' later due step rest ih =>
    obtain ⟨left, rfl⟩ : ∃ more, left = more + 1 := ⟨left - 1, by omega⟩
    obtain ⟨triggers, fired, counted⟩ := @ih left
      (stops.imp (fun ⟨few, idle⟩ => ⟨by omega, idle⟩) fun all => by omega)
    refine ⟨triggers, ?_, by omega⟩
    rw [fireDue, step]
    dsimp only
    split
    · next idle =>
        -- nothing is due any more, so that no transaction is left
        have idle' : tables'.anyDue queueName now = false := by simpa using idle
        cases rest with
        | refl =>
          rw [List.length_eq_zero_iff.mp (by omega : triggers.length = 0)]
        | reports due' _ _ =>
          rw [idle'] at due'
          cases due'
        | silent due' _ _ =>
          rw [idle'] at due'
          cases due'
    · exact fired

theorem Fires.cost (fires : Fires zones queueName now count silent tables later) (upTo : now ≤ limit)
    (keyed : tables.Keyed) : later.Keyed ∧ count + later.cost limit ≤ tables.cost limit := by
  induction fires with
  | refl => exact ⟨keyed, by omega⟩
  | reports due step rest ih =>
    have cheaper := fireNextDue_cheaper upTo due step
    obtain ⟨keyed', bound⟩ := ih (cheaper.keyed keyed)
    have less := cheaper.less keyed
    exact ⟨keyed', by omega⟩
  | silent due step rest ih =>
    have cheaper := fireNextDue_cheaper upTo due step
    obtain ⟨keyed', bound⟩ := ih (cheaper.keyed keyed)
    have less := cheaper.less keyed
    exact ⟨keyed', by omega⟩

/-- What a tick reports and leaves, by its drains and its transactions. -/
theorem tick_fires (ticked : tick zones queueName batchSize now tables = .ok (report, later)) :
    ∃ count silent, Fires zones queueName now count silent (drainBuffers queueName tables.schedules.length tables).2 later ∧
      report.length + silent = (drainBuffers queueName tables.schedules.length tables).1.length + count ∧
      (count ≤ batchSize ∧ later.anyDue queueName now = false ∨ count = batchSize) := by
  unfold tick at ticked
  simp only [bind, Except.bind, pure, Except.pure] at ticked
  split at ticked
  · cases ticked
  · next answer fired =>
      cases ticked
      obtain ⟨count, silent, fires, counted, stops⟩ := fireDue_fires fired
      exact ⟨count, silent, fires, by rw [List.length_append]; omega, stops⟩

theorem Suffices.ticks (suffices' : Suffices zones queueName batchSize now tables) :
    ∃ report later, tick zones queueName batchSize now tables = .ok (report, later) ∧
      (report.length < batchSize → later.anyDue queueName now = false) := by
  obtain ⟨count, silent, later, fires, enough⟩ := suffices'
  obtain ⟨triggers, fired, counted⟩ := fires.loop
    (enough.imp id fun ⟨all, _⟩ => all)
  refine ⟨(drainBuffers queueName tables.schedules.length tables).1 ++ triggers, later, ?_, fun short => ?_⟩
  · unfold tick
    simp only [bind, Except.bind, fired]
    rfl
  · rw [List.length_append] at short
    rcases enough with ⟨-, idle⟩ | ⟨all, few⟩
    · exact idle
    · omega

/-- The drains of a tick go on until no buffer can start. -/
theorem drainBuffers_done (keyed : tables.Keyed) : (drainNextBuffer (drainBuffers queueName tables.schedules.length tables).2
      (drainBuffers queueName tables.schedules.length tables).2 queueName unlocked).1 = none := by
  -- a drain leaves one buffer less, and there are no more buffers than schedules
  suffices done : ∀ rounds tables, tables.Keyed → (tables.schedules.map fun row => row.bufferedFor.isSome.toNat).sum ≤ rounds →
      (drainNextBuffer (drainBuffers queueName rounds tables).2 (drainBuffers queueName rounds tables).2 queueName unlocked).1 = none by
    refine done _ _ keyed ?_
    generalize tables.schedules = rows
    induction rows with
    | nil => exact le_rfl
    | cons row rows ih =>
      have flag := Bool.toNat_le row.bufferedFor.isSome
      rw [List.map_cons, List.sum_cons, List.length_cons]
      omega
  intro rounds
  induction rounds with
  | zero =>
    intro tables keyed few
    rw [drainBuffers]
    cases step : drainNextBuffer tables tables queueName unlocked with
    | mk drained tables' =>
      cases drained with
      | none => rfl
      | some trigger =>
        obtain ⟨row, member, waits, same⟩ := drainNextBuffer_update step
        have less := sum_update (fun row : ScheduleRow => row.bufferedFor.isSome.toNat)
          (fun other => { other with bufferedFor := none }) member keyed (by rw [waits]; exact Nat.zero_lt_one)
        omega
  | succ rounds ih =>
    intro tables keyed few
    rw [drainBuffers]
    cases step : drainNextBuffer tables tables queueName unlocked with
    | mk drained tables' =>
      cases drained with
      | none =>
        dsimp only
        rw [step]
      | some trigger =>
        obtain ⟨row, member, waits, same⟩ := drainNextBuffer_update step
        have less := sum_update (fun row : ScheduleRow => row.bufferedFor.isSome.toNat)
          (fun other => { other with bufferedFor := none }) member keyed (by rw [waits]; exact Nat.zero_lt_one)
        have cheaper : Cheaper 0 tables tables' := drainNextBuffer_cheaper step
        rw [← same] at less
        exact ih tables' (cheaper.keyed keyed) (by omega)

end Ticks

section CatchUps

variable {zones : ZoneTable} {queueName : String} {tables start later : ScheduleTables} {limit last : Int}
  {triggers : List ScheduleTrigger} {batchSize round rounds : Nat} {readings : Nat → Int}

end CatchUps

end DurableExecution.Schedules

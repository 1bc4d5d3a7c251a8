import DurableExecution.Schedules.ScheduleManager

/-
This file lists what one write of the schedule manager can do to its tables, and shows that
the ledger, the buffered triggers and the runs stay in step.
-/

namespace DurableExecution.Schedules

open Engine (RunId RunState)
open Workflow (JsValue)

section Tables

variable {tables : ScheduleTables} {id other : ScheduleId} {scheduledFor instant : Int} {schedule row : ScheduleRow}
  {trigger : TriggerRow}

/-- The row of the ledger for an instant of a schedule. -/
def ScheduleTables.trigger? (tables : ScheduleTables) (id : ScheduleId) (scheduledFor : Int) : Option TriggerRow :=
  tables.triggers.find? fun row => row.scheduleId == id && row.scheduledFor == scheduledFor

def TriggerRow.key (row : TriggerRow) : ScheduleId × Int := (row.scheduleId, row.scheduledFor)

def ScheduleTask.key (task : ScheduleTask) : ScheduleId × Int := (task.scheduleId, task.scheduledFor)

def ScheduleTables.addTrigger (tables : ScheduleTables) (trigger : TriggerRow) : ScheduleTables :=
  { tables with triggers := tables.triggers ++ [trigger] }

theorem trigger?_some (found : tables.trigger? id scheduledFor = some trigger) :
    trigger ∈ tables.triggers ∧ trigger.scheduleId = id ∧ trigger.scheduledFor = scheduledFor := by
  have key := List.find?_some found
  simp only [Bool.and_eq_true, beq_iff_eq] at key
  exact ⟨List.mem_of_find?_eq_some found, key⟩

theorem trigger?_none : tables.trigger? id scheduledFor = none ↔ tables.rowsFor id scheduledFor = [] := by
  rw [ScheduleTables.trigger?, ScheduleTables.rowsFor, List.find?_eq_none, List.filter_eq_nil_iff]

/-- While no key occurs twice, a row is found by its key. -/
theorem trigger?_mem (keys : (tables.triggers.map TriggerRow.key).Nodup) (member : trigger ∈ tables.triggers) :
    tables.trigger? trigger.scheduleId trigger.scheduledFor = some trigger := by
  cases found : tables.trigger? trigger.scheduleId trigger.scheduledFor with
  | none =>
    have absent := List.find?_eq_none.mp found trigger member
    simp at absent
  | some row =>
    obtain ⟨member', id, instant⟩ := trigger?_some found
    have same : row = trigger := List.inj_on_of_nodup_map keys member' member (Prod.ext id instant)
    rw [same]

theorem rowsFor_eq (keys : (tables.triggers.map TriggerRow.key).Nodup) :
    tables.rowsFor id scheduledFor = (tables.trigger? id scheduledFor).toList := by
  cases found : tables.trigger? id scheduledFor with
  | none => exact trigger?_none.mp found
  | some row =>
    obtain ⟨member, own, at'⟩ := trigger?_some found
    have nodup : (tables.rowsFor id scheduledFor).Nodup := keys.of_map.filter _
    have only : ∀ other ∈ tables.rowsFor id scheduledFor, other = row := by
      intro other listed
      obtain ⟨listed, key⟩ := List.mem_filter.mp listed
      simp only [Bool.and_eq_true, beq_iff_eq] at key
      exact List.inj_on_of_nodup_map keys listed member (Prod.ext (key.1.trans own.symm) (key.2.trans at'.symm))
    have listed : row ∈ tables.rowsFor id scheduledFor := List.mem_filter.mpr ⟨member, by simp [own, at']⟩
    rw [Option.toList_some]
    refine List.perm_singleton.mp ((List.perm_ext_iff_of_nodup nodup (List.nodup_singleton row)).mpr fun other => ?_)
    rw [List.mem_singleton]
    exact ⟨only other, fun same => same ▸ listed⟩

theorem addTrigger_trigger? (absent : tables.trigger? trigger.scheduleId trigger.scheduledFor = none) :
    (tables.addTrigger trigger).trigger? id scheduledFor =
      if id = trigger.scheduleId ∧ scheduledFor = trigger.scheduledFor then some trigger
      else tables.trigger? id scheduledFor := by
  unfold ScheduleTables.addTrigger ScheduleTables.trigger?
  rw [List.find?_append]
  by_cases same : id = trigger.scheduleId ∧ scheduledFor = trigger.scheduledFor
  · obtain ⟨rfl, rfl⟩ := same
    unfold ScheduleTables.trigger? at absent
    simp [absent]
  · rw [if_neg same]
    have apart : (trigger.scheduleId == id && trigger.scheduledFor == scheduledFor) = false := by
      rw [Bool.and_eq_false_iff]
      by_contra both
      rw [not_or, Bool.not_eq_false, Bool.not_eq_false] at both
      exact same ⟨(beq_iff_eq.mp both.1).symm, (beq_iff_eq.mp both.2).symm⟩
    simp [apart]

theorem addTrigger_handled (absent : tables.trigger? trigger.scheduleId trigger.scheduledFor = none) :
    ((tables.addTrigger trigger).trigger? id scheduledFor).isSome ↔
      (tables.trigger? id scheduledFor).isSome ∨ id = trigger.scheduleId ∧ scheduledFor = trigger.scheduledFor := by
  rw [addTrigger_trigger? absent]
  split
  · next own => exact iff_of_true rfl (.inr own)
  · next apart => exact ⟨.inl, fun either => either.elim (fun known => known) fun own => absurd own apart⟩

theorem updateTrigger_trigger? {change : TriggerRow → TriggerRow} (keeps : ∀ row, (change row).key = row.key) :
    (tables.updateTrigger other instant change).trigger? id scheduledFor =
      if id = other ∧ scheduledFor = instant then (tables.trigger? id scheduledFor).map change
      else tables.trigger? id scheduledFor := by
  have keyed (row : TriggerRow) : ((if row.scheduleId = other ∧ row.scheduledFor = instant then change row else row).scheduleId
      == id && (if row.scheduleId = other ∧ row.scheduledFor = instant then change row else row).scheduledFor ==
        scheduledFor) = (row.scheduleId == id && row.scheduledFor == scheduledFor) := by
    split
    · have own : (change row).scheduleId = row.scheduleId := congrArg Prod.fst (keeps row)
      have at' : (change row).scheduledFor = row.scheduledFor := congrArg Prod.snd (keeps row)
      rw [own, at']
    · rfl
  unfold ScheduleTables.updateTrigger ScheduleTables.trigger?
  simp only [List.find?_map, Function.comp_def, keyed]
  cases found : tables.triggers.find? fun row => row.scheduleId == id && row.scheduledFor == scheduledFor with
  | none => simp
  | some row =>
    have key := List.find?_some found
    simp only [Bool.and_eq_true, beq_iff_eq] at key
    simp only [Option.map_some, key.1, key.2]
    split <;> rfl

theorem updateTrigger_keys {change : TriggerRow → TriggerRow} (keeps : ∀ row, (change row).key = row.key) :
    (tables.updateTrigger other instant change).triggers.map TriggerRow.key = tables.triggers.map TriggerRow.key := by
  simp only [ScheduleTables.updateTrigger, List.map_map]
  refine List.map_congr_left fun row _ => ?_
  simp only [Function.comp_apply]
  split
  · exact keeps row
  · rfl

theorem updateSchedule_ids {change : ScheduleRow → ScheduleRow} (keeps : ∀ row, (change row).id = row.id) :
    (tables.updateSchedule id change).schedules.map ScheduleRow.id = tables.schedules.map ScheduleRow.id := by
  simp only [ScheduleTables.updateSchedule, List.map_map]
  refine List.map_congr_left fun row _ => ?_
  simp only [Function.comp_apply]
  split
  · exact keeps row
  · rfl

theorem updateSchedule_mem {change : ScheduleRow → ScheduleRow}
    (member : row ∈ (tables.updateSchedule id change).schedules) :
    ∃ old ∈ tables.schedules, row = if old.id = id then change old else old := by
  obtain ⟨old, member, same⟩ := List.mem_map.mp member
  exact ⟨old, member, same.symm⟩

theorem nodup_concat {A B : Type} {f : A → B} {items : List A} {item : A} (nodup : (items.map f).Nodup)
    (absent : ∀ other ∈ items, f other ≠ f item) : ((items ++ [item]).map f).Nodup := by
  rw [List.map_append, List.map_singleton, ← List.concat_eq_append]
  refine nodup.concat fun member => ?_
  obtain ⟨other, listed, same⟩ := List.mem_map.mp member
  exact absent other listed same

end Tables

/-- What one write of the schedule manager, or of the engine on the runs of schedules, does. A drain that is
`blind` starts its run whatever runs are open by then. -/
inductive LedgerStep (blind : Prop) (tables : ScheduleTables) : ScheduleTables → Prop where
  | starts (schedule : ScheduleRow) (scheduledFor : Int) (member : schedule ∈ tables.schedules)
      (absent : tables.trigger? schedule.id scheduledFor = none)
      (free : schedule.overlapPolicy = .allowAll ∨ tables.openRuns schedule.id = []) :
      LedgerStep blind tables ((startRun tables schedule scheduledFor).2.addTrigger
        ⟨schedule.id, scheduledFor, .started, some tables.nextId⟩)
  | buffers (schedule : ScheduleRow) (scheduledFor : Int) (member : schedule ∈ tables.schedules)
      (absent : tables.trigger? schedule.id scheduledFor = none) (policy : schedule.overlapPolicy = .bufferOne) :
      LedgerStep blind tables ((replaceBuffered tables schedule scheduledFor).addTrigger
        ⟨schedule.id, scheduledFor, .buffered, none⟩)
  | skips (schedule : ScheduleRow) (scheduledFor : Int) (member : schedule ∈ tables.schedules)
      (absent : tables.trigger? schedule.id scheduledFor = none) :
      LedgerStep blind tables (tables.addTrigger ⟨schedule.id, scheduledFor, .skipped, none⟩)
  | drains (schedule : ScheduleRow) (scheduledFor : Int) (member : schedule ∈ tables.schedules)
      (active : schedule.state = .active) (waiting : schedule.bufferedFor = some scheduledFor)
      (free : blind ∨ tables.openRuns schedule.id = []) :
      LedgerStep blind tables (((startRun tables schedule scheduledFor).2.updateTrigger schedule.id scheduledFor fun row =>
        { row with outcome := .started, runId := some tables.nextId }).updateSchedule schedule.id fun row =>
          { row with bufferedFor := none })
  | opens (row : ScheduleRow) (numbered : row.id = tables.nextId) (unbuffered : row.bufferedFor = none) :
      LedgerStep blind tables { tables with schedules := tables.schedules ++ [row], nextId := tables.nextId + 1 }
  | closes (runId : RunId) (status : RunState) : LedgerStep blind tables (closeRun tables runId status)
  | continues (runId : RunId) (input : JsValue) : LedgerStep blind tables (continueRun tables runId input)
  | creates (run : ScheduledRun) : LedgerStep blind tables (createRun tables run)

/-- The tables agree on what became of every trigger. -/
structure Consistent (tables : ScheduleTables) : Prop where
  schedules : (tables.schedules.map ScheduleRow.id).Nodup
  keys : (tables.triggers.map TriggerRow.key).Nodup
  fresh : (∀ row ∈ tables.schedules, row.id < tables.nextId) ∧ (∀ run ∈ tables.runs, run.id < tables.nextId) ∧
    (∀ trigger ∈ tables.triggers, trigger.scheduleId < tables.nextId) ∧
    ∀ run ∈ tables.runs, ∀ id, run.scheduleId = some id → id < tables.nextId
  buffered : ∀ row ∈ tables.schedules, ∀ scheduledFor, row.bufferedFor = some scheduledFor ↔
    ∃ trigger, tables.trigger? row.id scheduledFor = some trigger ∧ trigger.outcome = .buffered
  started : ∀ id scheduledFor trigger, tables.trigger? id scheduledFor = some trigger →
    (trigger.outcome = .started ↔ trigger.runId.isSome)
  tasks : ∀ task ∈ tables.tasks, ∃ trigger, tables.trigger? task.scheduleId task.scheduledFor = some trigger ∧
    trigger.runId = some task.runId
  starts : ∀ id scheduledFor trigger runId, tables.trigger? id scheduledFor = some trigger →
    trigger.runId = some runId → ∃ task ∈ tables.tasks, task.key = (id, scheduledFor) ∧ task.runId = runId
  taskKeys : (tables.tasks.map ScheduleTask.key).Nodup
  taskRuns : (tables.tasks.map ScheduleTask.runId).Nodup
  taskRun : ∀ task ∈ tables.tasks, ∃ run ∈ tables.runs, run.id = task.runId ∧ run.scheduleId = some task.scheduleId

/-- Runs of a schedule overlap only where its policy lets them. -/
def Exclusive (tables : ScheduleTables) : Prop :=
  ∀ row ∈ tables.schedules, row.overlapPolicy ≠ .allowAll → (tables.openRuns row.id).length ≤ 1

section Steps

variable {tables : ScheduleTables} {id : ScheduleId} {scheduledFor : Int} {schedule : ScheduleRow} {blind : Prop}

theorem startRun_openRuns : (startRun tables schedule scheduledFor).2.openRuns id =
    tables.openRuns id ++ if id = schedule.id then [{
      id := tables.nextId
      namespaceId := schedule.namespaceId
      workflowType := schedule.workflowType
      input := schedule.input.stored
      scheduleId := some schedule.id
      queueName := schedule.queueName
      status := .running }] else [] := by
  simp only [startRun, ScheduleTables.openRuns, List.filter_append]
  congr 1
  by_cases same : id = schedule.id
  · simp [same]
  · simp [same, Ne.symm same]

theorem Consistent.untasked (consistent : Consistent tables)
    (waiting : ∀ trigger, tables.trigger? id scheduledFor = some trigger → trigger.runId = none) :
    ∀ task ∈ tables.tasks, task.key ≠ (id, scheduledFor) := by
  intro task listed same
  obtain ⟨trigger, found, ran⟩ := consistent.tasks task listed
  have key : task.scheduleId = id ∧ task.scheduledFor = scheduledFor := Prod.ext_iff.mp same
  rw [key.1, key.2] at found
  rw [waiting trigger found] at ran
  cases ran

theorem Consistent.newRun (consistent : Consistent tables) : ∀ task ∈ tables.tasks, task.runId ≠ tables.nextId := by
  intro task listed same
  obtain ⟨run, member, own, -⟩ := consistent.taskRun task listed
  exact absurd (own.trans same) (Nat.ne_of_lt (consistent.fresh.2.1 run member))

theorem absent_key (absent : tables.trigger? id scheduledFor = none) : ∀ trigger ∈ tables.triggers, trigger.key ≠ (id, scheduledFor) := by
  intro trigger listed same
  have key : trigger.scheduleId = id ∧ trigger.scheduledFor = scheduledFor := Prod.ext_iff.mp same
  have none' := List.find?_eq_none.mp absent trigger listed
  simp [key.1, key.2] at none'

theorem Consistent.unbuffered (consistent : Consistent tables) (absent : tables.trigger? id scheduledFor = none)
    {row : ScheduleRow} (member : row ∈ tables.schedules) (own : row.id = id) : row.bufferedFor ≠ some scheduledFor := by
  intro buffered
  obtain ⟨trigger, found, -⟩ := (consistent.buffered row member scheduledFor).mp buffered
  rw [own, absent] at found
  cases found

/-- The fresh ids after a run was started. -/
theorem Consistent.startRun_fresh (consistent : Consistent tables) (scheduledFor : Int) (member : schedule ∈ tables.schedules) :
    (∀ run ∈ (startRun tables schedule scheduledFor).2.runs, run.id < tables.nextId + 1) ∧
      ∀ run ∈ (startRun tables schedule scheduledFor).2.runs, ∀ id, run.scheduleId = some id → id < tables.nextId + 1 := by
  constructor
  · intro run listed
    rcases List.mem_append.mp listed with before | new
    · exact Nat.lt_succ_of_lt (consistent.fresh.2.1 run before)
    · rw [List.mem_singleton.mp new]
      exact Nat.lt_succ_self _
  · intro run listed id own
    rcases List.mem_append.mp listed with before | new
    · exact Nat.lt_succ_of_lt (consistent.fresh.2.2.2 run before id own)
    · rw [List.mem_singleton.mp new] at own
      cases own
      exact Nat.lt_succ_of_lt (consistent.fresh.1 schedule member)

/-- The tasks after a run was started, with the trigger that it was started for. -/
theorem Consistent.startRun_tasks (consistent : Consistent tables)
    (waiting : ∀ trigger, tables.trigger? schedule.id scheduledFor = some trigger → trigger.runId = none) :
    ((startRun tables schedule scheduledFor).2.tasks.map ScheduleTask.key).Nodup ∧
      ((startRun tables schedule scheduledFor).2.tasks.map ScheduleTask.runId).Nodup ∧
      ∀ task ∈ (startRun tables schedule scheduledFor).2.tasks,
        ∃ run ∈ (startRun tables schedule scheduledFor).2.runs, run.id = task.runId ∧ run.scheduleId = some task.scheduleId := by
  refine ⟨nodup_concat consistent.taskKeys (consistent.untasked waiting),
    nodup_concat consistent.taskRuns consistent.newRun, fun task listed => ?_⟩
  rcases List.mem_append.mp listed with before | new
  · obtain ⟨run, member, own⟩ := consistent.taskRun task before
    exact ⟨run, List.mem_append_left _ member, own⟩
  · rw [List.mem_singleton.mp new]
    exact ⟨_, List.mem_append_right _ (List.mem_singleton_self _), rfl, rfl⟩

theorem Consistent.starts_step (consistent : Consistent tables) (member : schedule ∈ tables.schedules)
    (absent : tables.trigger? schedule.id scheduledFor = none) : Consistent ((startRun tables schedule scheduledFor).2.addTrigger
      ⟨schedule.id, scheduledFor, .started, some tables.nextId⟩) := by
  have found (id : ScheduleId) (instant : Int) : ((startRun tables schedule scheduledFor).2.addTrigger
      ⟨schedule.id, scheduledFor, .started, some tables.nextId⟩).trigger? id instant =
        if id = schedule.id ∧ instant = scheduledFor then
          some ⟨schedule.id, scheduledFor, .started, some tables.nextId⟩ else tables.trigger? id instant :=
    addTrigger_trigger? absent
  have waiting : ∀ trigger, tables.trigger? schedule.id scheduledFor = some trigger → trigger.runId = none := by
    intro trigger same
    rw [absent] at same
    cases same
  obtain ⟨taskKeys, taskRuns, taskRun⟩ := consistent.startRun_tasks waiting
  obtain ⟨freshRuns, freshOwners⟩ := consistent.startRun_fresh scheduledFor member
  constructor
  · exact consistent.schedules
  · exact nodup_concat consistent.keys (absent_key absent)
  · refine ⟨fun row listed => Nat.lt_succ_of_lt (consistent.fresh.1 row listed), freshRuns, fun trigger listed => ?_,
      freshOwners⟩
    rcases List.mem_append.mp listed with before | new
    · exact Nat.lt_succ_of_lt (consistent.fresh.2.2.1 trigger before)
    · rw [List.mem_singleton.mp new]
      exact Nat.lt_succ_of_lt (consistent.fresh.1 schedule member)
  · intro row listed instant
    rw [found]
    split
    · next same =>
        rw [same.2]
        refine iff_of_false (consistent.unbuffered absent listed same.1) ?_
        rintro ⟨trigger, rfl', outcome⟩
        cases rfl'
        cases outcome
    · exact consistent.buffered row listed instant
  · intro id instant trigger at'
    rw [found] at at'
    split at at'
    · cases at'
      exact iff_of_true rfl rfl
    · exact consistent.started id instant trigger at'
  · intro task listed
    rw [found]
    rcases List.mem_append.mp listed with before | new
    · obtain ⟨trigger, at', ran⟩ := consistent.tasks task before
      split
      · next same =>
          rw [same.1, same.2, absent] at at'
          cases at'
      · exact ⟨trigger, at', ran⟩
    · rw [List.mem_singleton.mp new, if_pos ⟨rfl, rfl⟩]
      exact ⟨_, rfl, rfl⟩
  · intro id instant trigger runId at' ran
    rw [found] at at'
    split at at'
    · next same =>
        cases at'
        cases ran
        refine ⟨_, List.mem_append_right _ (List.mem_singleton_self _), ?_, rfl⟩
        rw [same.1, same.2]
        rfl
    · obtain ⟨task, listed, same⟩ := consistent.starts id instant trigger runId at' ran
      exact ⟨task, List.mem_append_left _ listed, same⟩
  · exact taskKeys
  · exact taskRuns
  · exact taskRun

theorem Consistent.skips_step (consistent : Consistent tables) (member : schedule ∈ tables.schedules)
    (absent : tables.trigger? schedule.id scheduledFor = none) :
    Consistent (tables.addTrigger ⟨schedule.id, scheduledFor, .skipped, none⟩) := by
  have found (id : ScheduleId) (instant : Int) :
      (tables.addTrigger ⟨schedule.id, scheduledFor, .skipped, none⟩).trigger? id instant =
        if id = schedule.id ∧ instant = scheduledFor then some ⟨schedule.id, scheduledFor, .skipped, none⟩
        else tables.trigger? id instant := addTrigger_trigger? absent
  refine { consistent with
    keys := nodup_concat consistent.keys (absent_key absent)
    fresh := ⟨consistent.fresh.1, consistent.fresh.2.1, fun trigger listed => ?_, consistent.fresh.2.2.2⟩
    buffered := fun row listed instant => ?_
    started := fun id instant trigger at' => ?_
    tasks := fun task listed => ?_
    starts := fun id instant trigger runId at' ran => ?_ }
  · rcases List.mem_append.mp listed with before | new
    · exact consistent.fresh.2.2.1 trigger before
    · rw [List.mem_singleton.mp new]
      exact consistent.fresh.1 schedule member
  · rw [found]
    split
    · next same =>
        rw [same.2]
        refine iff_of_false (consistent.unbuffered absent listed same.1) ?_
        rintro ⟨trigger, rfl', outcome⟩
        cases rfl'
        cases outcome
    · exact consistent.buffered row listed instant
  · rw [found] at at'
    split at at'
    · cases at'
      exact iff_of_false (fun same => nomatch same) (fun same => nomatch same)
    · exact consistent.started id instant trigger at'
  · obtain ⟨trigger, at', ran⟩ := consistent.tasks task listed
    rw [found]
    split
    · next same =>
        rw [same.1, same.2, absent] at at'
        cases at'
    · exact ⟨trigger, at', ran⟩
  · rw [found] at at'
    split at at'
    · cases at'
      cases ran
    · exact consistent.starts id instant trigger runId at' ran

/-- The ledger after the buffered trigger was replaced. -/
theorem replaceBuffered_trigger? {id : ScheduleId} {instant : Int} :
    (replaceBuffered tables schedule scheduledFor).trigger? id instant =
      if id = schedule.id ∧ schedule.bufferedFor = some instant then
        (tables.trigger? id instant).map fun row => { row with outcome := .skipped }
      else tables.trigger? id instant := by
  unfold replaceBuffered
  cases waiting : schedule.bufferedFor with
  | none =>
    simp only [reduceCtorEq, and_false, if_false]
    rfl
  | some replaced =>
    dsimp only
    rw [updateTrigger_trigger?]
    · simp only [Option.some.injEq, eq_comm (a := replaced)]
      rfl
    · exact fun _ => rfl

theorem replaceBuffered_absent {id : ScheduleId} {instant : Int} (absent : tables.trigger? id instant = none) :
    (replaceBuffered tables schedule scheduledFor).trigger? id instant = none := by
  rw [replaceBuffered_trigger?, absent]
  split <;> rfl

theorem replaceBuffered_handled {id : ScheduleId} {instant : Int} :
    ((replaceBuffered tables schedule scheduledFor).trigger? id instant).isSome ↔ (tables.trigger? id instant).isSome := by
  rw [replaceBuffered_trigger?]
  split
  · rw [Option.isSome_map]
  · rfl

/-- The ledger after a trigger was buffered. -/
theorem buffers_trigger? {id : ScheduleId} {instant : Int} (absent : tables.trigger? schedule.id scheduledFor = none) :
    ((replaceBuffered tables schedule scheduledFor).addTrigger
      ⟨schedule.id, scheduledFor, .buffered, none⟩).trigger? id instant =
    if id = schedule.id ∧ instant = scheduledFor then some ⟨schedule.id, scheduledFor, .buffered, none⟩
    else if id = schedule.id ∧ schedule.bufferedFor = some instant then
      (tables.trigger? id instant).map fun row => { row with outcome := .skipped }
    else tables.trigger? id instant := by
  rw [addTrigger_trigger? (replaceBuffered_absent absent), replaceBuffered_trigger?]

/-- What a buffering leaves as it is, and the schedule that it changes. -/
theorem buffers_frame : ∃ triggers, replaceBuffered tables schedule scheduledFor =
    { tables.updateSchedule schedule.id fun row => { row with bufferedFor := some scheduledFor } with
      triggers := triggers } ∧ triggers.map TriggerRow.key = tables.triggers.map TriggerRow.key := by
  unfold replaceBuffered
  cases schedule.bufferedFor with
  | none => exact ⟨tables.triggers, rfl, rfl⟩
  | some replaced =>
    refine ⟨_, rfl, ?_⟩
    change (tables.updateTrigger schedule.id replaced _).triggers.map TriggerRow.key = _
    rw [updateTrigger_keys]
    exact fun _ => rfl

theorem Consistent.buffers_step (consistent : Consistent tables) (member : schedule ∈ tables.schedules)
    (absent : tables.trigger? schedule.id scheduledFor = none) :
    Consistent ((replaceBuffered tables schedule scheduledFor).addTrigger ⟨schedule.id, scheduledFor, .buffered, none⟩) := by
  have found (id : ScheduleId) (instant : Int) : ((replaceBuffered tables schedule scheduledFor).addTrigger
      ⟨schedule.id, scheduledFor, .buffered, none⟩).trigger? id instant = _ := buffers_trigger? absent
  -- the replaced trigger was buffered, so no run was started for it
  have replacedRun (instant : Int) (trigger : TriggerRow) (waiting : schedule.bufferedFor = some instant)
      (at' : tables.trigger? schedule.id instant = some trigger) : trigger.runId = none := by
    obtain ⟨other, same, outcome⟩ := (consistent.buffered schedule member instant).mp waiting
    rw [at'] at same
    cases same
    have ran := consistent.started schedule.id instant trigger at'
    rw [outcome] at ran
    cases run : trigger.runId with
    | none => rfl
    | some runId =>
      rw [run] at ran
      exact nomatch ran.mpr rfl
  obtain ⟨triggers, frame, sameKeys⟩ := @buffers_frame tables scheduledFor schedule
  have keysOf (row : TriggerRow) (listed : row ∈ triggers) : ∃ old ∈ tables.triggers, old.key = row.key := by
    have key : row.key ∈ triggers.map TriggerRow.key := List.mem_map_of_mem listed
    rw [sameKeys] at key
    exact List.mem_map.mp key
  rw [frame] at found ⊢
  constructor
  · change ((ScheduleTables.updateSchedule _ schedule.id _).schedules.map ScheduleRow.id).Nodup
    rw [updateSchedule_ids]
    · exact consistent.schedules
    · exact fun _ => rfl
  · refine nodup_concat (sameKeys.symm ▸ consistent.keys) fun row listed same => ?_
    obtain ⟨old, before, key⟩ := keysOf row listed
    exact absent_key absent old before (key.trans same)
  · refine ⟨fun row listed => ?_, consistent.fresh.2.1, fun trigger listed => ?_, consistent.fresh.2.2.2⟩
    · obtain ⟨old, before, rfl⟩ := updateSchedule_mem listed
      have below := consistent.fresh.1 old before
      split <;> exact below
    · rcases List.mem_append.mp listed with before | new
      · obtain ⟨old, before, key⟩ := keysOf trigger before
        have same : old.scheduleId = trigger.scheduleId := congrArg Prod.fst key
        exact same ▸ consistent.fresh.2.2.1 old before
      · rw [List.mem_singleton.mp new]
        exact consistent.fresh.1 schedule member
  · intro row listed instant
    obtain ⟨old, before, rfl⟩ := updateSchedule_mem listed
    by_cases own : old.id = schedule.id
    · rw [if_pos own]
      dsimp only
      rw [found]
      have same : old = schedule := List.inj_on_of_nodup_map consistent.schedules before member own
      subst same
      by_cases here : scheduledFor = instant
      · subst here
        rw [if_pos ⟨rfl, rfl⟩]
        exact iff_of_true rfl ⟨_, rfl, rfl⟩
      · rw [if_neg fun both => here both.2.symm]
        refine iff_of_false (fun same => here (Option.some.inj same)) ?_
        rintro ⟨trigger, at', outcome⟩
        split at at'
        · obtain ⟨earlier, -, rfl⟩ := Option.map_eq_some_iff.mp at'
          cases outcome
        · next kept =>
            exact kept ⟨rfl, (consistent.buffered old before instant).mpr ⟨trigger, at', outcome⟩⟩
    · rw [if_neg own, found, if_neg fun both => own both.1, if_neg fun both => own both.1]
      exact consistent.buffered old before instant
  · intro id instant trigger at'
    rw [found] at at'
    split at at'
    · cases at'
      exact iff_of_false (fun same => nomatch same) (fun same => nomatch same)
    · split at at'
      · next waiting =>
          obtain ⟨earlier, before, rfl⟩ := Option.map_eq_some_iff.mp at'
          rw [waiting.1] at before
          have none' := replacedRun instant earlier waiting.2 before
          refine iff_of_false (fun same => nomatch same) ?_
          change ¬ earlier.runId.isSome
          rw [none']
          exact fun same => nomatch same
      · exact consistent.started id instant trigger at'
  · intro task listed
    obtain ⟨trigger, at', ran⟩ := consistent.tasks task listed
    rw [found]
    split
    · next same =>
        rw [same.1, same.2, absent] at at'
        cases at'
    · split
      · rw [at']
        exact ⟨_, rfl, ran⟩
      · exact ⟨trigger, at', ran⟩
  · intro id instant trigger runId at' ran
    rw [found] at at'
    split at at'
    · cases at'
      cases ran
    · split at at'
      · obtain ⟨earlier, before, rfl⟩ := Option.map_eq_some_iff.mp at'
        exact consistent.starts id instant earlier runId before ran
      · exact consistent.starts id instant trigger runId at' ran
  · exact consistent.taskKeys
  · exact consistent.taskRuns
  · exact consistent.taskRun

theorem Consistent.drains_step (consistent : Consistent tables) (member : schedule ∈ tables.schedules)
    (waiting : schedule.bufferedFor = some scheduledFor) :
    Consistent (((startRun tables schedule scheduledFor).2.updateTrigger schedule.id scheduledFor fun row =>
      { row with outcome := .started, runId := some tables.nextId }).updateSchedule schedule.id fun row =>
        { row with bufferedFor := none }) := by
  obtain ⟨buffered, at', outcome⟩ := (consistent.buffered schedule member scheduledFor).mp waiting
  have found (id : ScheduleId) (instant : Int) : (((startRun tables schedule scheduledFor).2.updateTrigger schedule.id
      scheduledFor fun row => { row with outcome := .started, runId := some tables.nextId }).updateSchedule schedule.id
        fun row => { row with bufferedFor := none }).trigger? id instant =
      if id = schedule.id ∧ instant = scheduledFor then
        (tables.trigger? id instant).map fun row => { row with outcome := .started, runId := some tables.nextId }
      else tables.trigger? id instant := by
    change ((startRun tables schedule scheduledFor).2.updateTrigger schedule.id scheduledFor _).trigger? id instant = _
    rw [updateTrigger_trigger?]
    · rfl
    · exact fun _ => rfl
  have unstarted : ∀ trigger, tables.trigger? schedule.id scheduledFor = some trigger → trigger.runId = none := by
    intro trigger same
    rw [at'] at same
    cases same
    have ran := consistent.started schedule.id scheduledFor buffered at'
    rw [outcome] at ran
    cases run : buffered.runId with
    | none => rfl
    | some runId =>
      rw [run] at ran
      exact nomatch ran.mpr rfl
  obtain ⟨taskKeys, taskRuns, taskRun⟩ := consistent.startRun_tasks unstarted
  obtain ⟨freshRuns, freshOwners⟩ := consistent.startRun_fresh scheduledFor member
  constructor
  · rw [updateSchedule_ids]
    · exact consistent.schedules
    · exact fun _ => rfl
  · change (((startRun tables schedule scheduledFor).2.updateTrigger schedule.id scheduledFor _).triggers.map
      TriggerRow.key).Nodup
    rw [updateTrigger_keys]
    · exact consistent.keys
    · exact fun _ => rfl
  · refine ⟨fun row listed => ?_, freshRuns, fun trigger listed => ?_, freshOwners⟩
    · obtain ⟨old, before, rfl⟩ := updateSchedule_mem listed
      have below := consistent.fresh.1 old before
      split <;> exact Nat.lt_succ_of_lt below
    · obtain ⟨old, before, rfl⟩ := List.mem_map.mp listed
      have below := consistent.fresh.2.2.1 old before
      split <;> exact Nat.lt_succ_of_lt below
  · intro row listed instant
    obtain ⟨old, before, rfl⟩ := updateSchedule_mem listed
    by_cases own : old.id = schedule.id
    · rw [if_pos own]
      dsimp only
      rw [found]
      have same : old = schedule := List.inj_on_of_nodup_map consistent.schedules before member own
      subst same
      refine iff_of_false (fun same => nomatch same) ?_
      rintro ⟨trigger, found', outcome'⟩
      split at found'
      · obtain ⟨earlier, -, rfl⟩ := Option.map_eq_some_iff.mp found'
        cases outcome'
      · next elsewhere =>
          have both := (consistent.buffered old before instant).mpr ⟨trigger, found', outcome'⟩
          rw [waiting] at both
          exact elsewhere ⟨rfl, (Option.some.inj both).symm⟩
    · rw [if_neg own, found, if_neg fun both => own both.1]
      exact consistent.buffered old before instant
  · intro id instant trigger found'
    rw [found] at found'
    split at found'
    · obtain ⟨earlier, -, rfl⟩ := Option.map_eq_some_iff.mp found'
      exact iff_of_true rfl rfl
    · exact consistent.started id instant trigger found'
  · intro task listed
    rw [found]
    rcases List.mem_append.mp listed with before | new
    · obtain ⟨trigger, found', ran⟩ := consistent.tasks task before
      split
      · next same =>
          rw [same.1, same.2] at found'
          rw [unstarted trigger found'] at ran
          cases ran
      · exact ⟨trigger, found', ran⟩
    · rw [List.mem_singleton.mp new, if_pos ⟨rfl, rfl⟩, at']
      exact ⟨_, rfl, rfl⟩
  · intro id instant trigger runId found' ran
    rw [found] at found'
    split at found'
    · next same =>
        obtain ⟨earlier, -, rfl⟩ := Option.map_eq_some_iff.mp found'
        cases ran
        refine ⟨_, List.mem_append_right _ (List.mem_singleton_self _), ?_, rfl⟩
        rw [same.1, same.2]
        rfl
    · obtain ⟨task, listed, same⟩ := consistent.starts id instant trigger runId found' ran
      exact ⟨task, List.mem_append_left _ listed, same⟩
  · exact taskKeys
  · exact taskRuns
  · exact taskRun

theorem Consistent.marks_step (consistent : Consistent tables) {change : ScheduleRow → ScheduleRow}
    (keeps : ∀ row, (change row).id = row.id ∧ (change row).overlapPolicy = row.overlapPolicy ∧
      (change row).bufferedFor = row.bufferedFor) : Consistent (tables.updateSchedule id change) := by
  have columns (old : ScheduleRow) : (if old.id = id then change old else old).id = old.id ∧
      (if old.id = id then change old else old).overlapPolicy = old.overlapPolicy ∧
      (if old.id = id then change old else old).bufferedFor = old.bufferedFor := by
    split
    · exact keeps old
    · exact ⟨rfl, rfl, rfl⟩
  refine { consistent with
    schedules := ?_
    fresh := ⟨fun row listed => ?_, consistent.fresh.2⟩
    buffered := fun row listed scheduledFor => ?_ }
  · rw [updateSchedule_ids]
    · exact consistent.schedules
    · exact fun row => (keeps row).1
  · obtain ⟨old, before, rfl⟩ := updateSchedule_mem listed
    rw [(columns old).1]
    exact consistent.fresh.1 old before
  · obtain ⟨old, before, rfl⟩ := updateSchedule_mem listed
    rw [(columns old).1, (columns old).2.2]
    exact consistent.buffered old before scheduledFor

theorem Consistent.opens_step (consistent : Consistent tables) {row : ScheduleRow} (numbered : row.id = tables.nextId)
    (unbuffered : row.bufferedFor = none) :
    Consistent { tables with schedules := tables.schedules ++ [row], nextId := tables.nextId + 1 } := by
  obtain ⟨rows, runs, triggers, owners⟩ := consistent.fresh
  refine { consistent with
    schedules := nodup_concat consistent.schedules fun other listed => ?_
    fresh := ⟨fun other listed => ?_, fun run listed => Nat.lt_succ_of_lt (runs run listed),
      fun trigger listed => Nat.lt_succ_of_lt (triggers trigger listed),
      fun run listed id own => Nat.lt_succ_of_lt (owners run listed id own)⟩
    buffered := fun other listed scheduledFor => ?_ }
  · rw [numbered]
    exact Nat.ne_of_lt (rows other listed)
  · rcases List.mem_append.mp listed with before | new
    · exact Nat.lt_succ_of_lt (rows other before)
    · rw [List.mem_singleton.mp new, numbered]
      exact Nat.lt_succ_self _
  · rcases List.mem_append.mp listed with before | new
    · exact consistent.buffered other before scheduledFor
    · rw [List.mem_singleton.mp new, unbuffered]
      refine iff_of_false (fun same => nomatch same) ?_
      rintro ⟨trigger, found, -⟩
      obtain ⟨member, own, -⟩ := trigger?_some found
      exact absurd (own.trans numbered) (Nat.ne_of_lt (triggers trigger member))

/-- A run that is closed keeps its columns. -/
theorem closeRun_columns (run : ScheduledRun) (runId : RunId) (status : RunState) :
    (if run.id = runId ∧ run.status = .running then { run with status := status } else run).id = run.id ∧
      (if run.id = runId ∧ run.status = .running then { run with status := status } else run).scheduleId =
        run.scheduleId := by
  split <;> exact ⟨rfl, rfl⟩

/-- Closing runs opens none. -/
theorem closeRun_openRuns (runId : RunId) (status : RunState) (id : ScheduleId) :
    ((closeRun tables runId status).openRuns id).length ≤ (tables.openRuns id).length := by
  simp only [closeRun, ScheduleTables.openRuns, ← List.countP_eq_length_filter, List.countP_map]
  refine List.countP_mono_left fun run _ => ?_
  simp only [Function.comp_apply, (closeRun_columns run runId status).2, Bool.and_eq_true, beq_iff_eq]
  rintro ⟨own, open'⟩
  refine ⟨own, ?_⟩
  split at open'
  · next both => exact both.2
  · exact open'

theorem Consistent.closes_step (consistent : Consistent tables) (runId : RunId) (status : RunState) :
    Consistent (closeRun tables runId status) := by
  obtain ⟨rows, runs, triggers, owners⟩ := consistent.fresh
  have columns := fun run => closeRun_columns run runId status
  refine { consistent with
    fresh := ⟨rows, fun run listed => ?_, triggers, fun run listed id own => ?_⟩
    taskRun := fun task listed => ?_ }
  · obtain ⟨old, before, rfl⟩ := List.mem_map.mp listed
    rw [(columns old).1]
    exact runs old before
  · obtain ⟨old, before, rfl⟩ := List.mem_map.mp listed
    rw [(columns old).2] at own
    exact owners old before id own
  · obtain ⟨run, member, own, scheduled⟩ := consistent.taskRun task listed
    exact ⟨_, List.mem_map_of_mem member, (columns run).1.trans own, (columns run).2.trans scheduled⟩

/-- A run is appended, and the tables go on from the next id. -/
theorem Consistent.addRun (consistent : Consistent tables) {run : ScheduledRun} (numbered : run.id = tables.nextId)
    (owned : ∀ id, run.scheduleId = some id → id < tables.nextId) :
    Consistent { tables with runs := tables.runs ++ [run], nextId := tables.nextId + 1 } := by
  obtain ⟨rows, runs, triggers, owners⟩ := consistent.fresh
  refine { consistent with
    fresh := ⟨fun row listed => Nat.lt_succ_of_lt (rows row listed), fun other listed => ?_,
      fun trigger listed => Nat.lt_succ_of_lt (triggers trigger listed), fun other listed id own => ?_⟩
    taskRun := fun task listed => ?_ }
  · rcases List.mem_append.mp listed with before | new
    · exact Nat.lt_succ_of_lt (runs other before)
    · rw [List.mem_singleton.mp new, numbered]
      exact Nat.lt_succ_self _
  · rcases List.mem_append.mp listed with before | new
    · exact Nat.lt_succ_of_lt (owners other before id own)
    · rw [List.mem_singleton.mp new] at own
      exact Nat.lt_succ_of_lt (owned id own)
  · obtain ⟨other, member, own⟩ := consistent.taskRun task listed
    exact ⟨other, List.mem_append_left _ member, own⟩

theorem Consistent.creates_step (consistent : Consistent tables) (run : ScheduledRun) : Consistent (createRun tables run) :=
  consistent.addRun rfl fun _ own => nomatch own

theorem Consistent.continues_step (consistent : Consistent tables) (runId : RunId) (input : JsValue) :
    Consistent (continueRun tables runId input) := by
  unfold continueRun
  split
  · exact consistent
  · next run found =>
      have member := List.mem_of_find?_eq_some found
      exact (consistent.closes_step runId .continuedAsNew).addRun rfl fun id own => consistent.fresh.2.2.2 run member id own

/-- Every write keeps the tables in step. -/
theorem Consistent.step {tables' : ScheduleTables} (consistent : Consistent tables) (step : LedgerStep blind tables tables') :
    Consistent tables' := by
  cases step with
  | starts schedule scheduledFor member absent free => exact consistent.starts_step member absent
  | buffers schedule scheduledFor member absent policy => exact consistent.buffers_step member absent
  | skips schedule scheduledFor member absent => exact consistent.skips_step member absent
  | drains schedule scheduledFor member active waiting free => exact consistent.drains_step member waiting
  | opens row numbered unbuffered => exact consistent.opens_step numbered unbuffered
  | closes runId status => exact consistent.closes_step runId status
  | continues runId input => exact consistent.continues_step runId input
  | creates run => exact consistent.creates_step run

theorem Exclusive.marks_step (exclusive : Exclusive tables) {change : ScheduleRow → ScheduleRow}
    (keeps : ∀ row, (change row).id = row.id ∧ (change row).overlapPolicy = row.overlapPolicy) :
    Exclusive (tables.updateSchedule id change) := by
  intro row listed apart
  obtain ⟨old, before, rfl⟩ := updateSchedule_mem listed
  split at apart
  · next own =>
      rw [(keeps old).2] at apart
      rw [if_pos own, (keeps old).1]
      exact exclusive old before apart
  · next other =>
      rw [if_neg other]
      exact exclusive old before apart

/-- A run of a schedule is started where none is open, or where runs may overlap. -/
theorem Exclusive.starts_run (exclusive : Exclusive tables) (consistent : Consistent tables) (scheduledFor : Int)
    (member : schedule ∈ tables.schedules) (free : schedule.overlapPolicy = .allowAll ∨ tables.openRuns schedule.id = []) :
    Exclusive (startRun tables schedule scheduledFor).2 := by
  intro row listed apart
  rw [startRun_openRuns]
  split
  · next same =>
      have own : row = schedule := List.inj_on_of_nodup_map consistent.schedules listed member same
      subst own
      rcases free with overlapping | none'
      · exact absurd overlapping apart
      · rw [none']
        exact le_rfl
  · rw [List.append_nil]
    exact exclusive row listed apart

/-- A run is appended that no open run of its schedule stands beside. -/
theorem Exclusive.addRun (exclusive : Exclusive tables) {run : ScheduledRun}
    (alone : ∀ row ∈ tables.schedules, row.overlapPolicy ≠ .allowAll → run.scheduleId = some row.id →
      run.status = .running → tables.openRuns row.id = []) :
    Exclusive { tables with runs := tables.runs ++ [run], nextId := tables.nextId + 1 } := by
  intro row listed apart
  change (List.filter _ (tables.runs ++ [run])).length ≤ 1
  rw [List.filter_append, List.length_append]
  have before := exclusive row listed apart
  unfold ScheduleTables.openRuns at before
  by_cases opened : run.scheduleId = some row.id ∧ run.status = .running
  · have none' := alone row listed apart opened.1 opened.2
    unfold ScheduleTables.openRuns at none'
    rw [none']
    simp [opened]
  · have kept : List.filter (fun run => run.scheduleId == some row.id && run.status == .running) [run] = [] := by
      refine List.filter_eq_nil_iff.mpr fun other member own => ?_
      rw [List.mem_singleton.mp member] at own
      simp only [Bool.and_eq_true, beq_iff_eq] at own
      exact opened own
    rw [kept]
    exact before

theorem Exclusive.closes_step (exclusive : Exclusive tables) (runId : RunId) (status : RunState) :
    Exclusive (closeRun tables runId status) :=
  fun row listed apart => le_trans (closeRun_openRuns runId status row.id) (exclusive row listed apart)

/-- A run that continues was the only open one of its schedule. -/
theorem Exclusive.continues_step (exclusive : Exclusive tables) (runId : RunId) (input : JsValue) :
    Exclusive (continueRun tables runId input) := by
  unfold continueRun
  split
  · exact exclusive
  · next run found =>
      have running := List.find?_some found
      have member := List.mem_of_find?_eq_some found
      simp only [Bool.and_eq_true, beq_iff_eq] at running
      refine (exclusive.closes_step runId .continuedAsNew).addRun fun row listed apart own _ => ?_
      -- whatever is open afterwards was open before, next to the run that continues
      refine List.eq_nil_iff_forall_not_mem.mpr fun other listed' => ?_
      obtain ⟨kept, open'⟩ := List.mem_filter.mp listed'
      obtain ⟨old, before, rfl⟩ := List.mem_map.mp kept
      have single := exclusive row listed apart
      split at open'
      · simp at open'
      · next apart =>
          simp only [Bool.and_eq_true, beq_iff_eq] at open'
          have one : run ∈ tables.openRuns row.id := List.mem_filter.mpr ⟨member, by
            simp only [Bool.and_eq_true, beq_iff_eq]
            exact ⟨own, running.2⟩⟩
          have two : old ∈ tables.openRuns row.id := List.mem_filter.mpr ⟨before, by
            simp only [Bool.and_eq_true, beq_iff_eq]
            exact open'⟩
          have same : run = old := by
            obtain ⟨only, rest, shape⟩ := List.exists_cons_of_ne_nil (List.ne_nil_of_mem one)
            rw [shape, List.length_cons] at single
            have none' : rest = [] := List.length_eq_zero_iff.mp (by omega)
            rw [shape, none', List.mem_singleton] at one two
            exact one.trans two.symm
          exact apart ⟨same ▸ running.1, open'.2⟩

/-- A schedule that is created has no run yet. -/
theorem Exclusive.opens_step (exclusive : Exclusive tables) (consistent : Consistent tables) {row : ScheduleRow}
    (numbered : row.id = tables.nextId) :
    Exclusive { tables with schedules := tables.schedules ++ [row], nextId := tables.nextId + 1 } := by
  intro other listed apart
  rcases List.mem_append.mp listed with before | new
  · exact exclusive other before apart
  · have none' : tables.openRuns other.id = [] := by
      refine List.filter_eq_nil_iff.mpr fun run member => ?_
      rw [List.mem_singleton.mp new, numbered]
      intro own
      simp only [Bool.and_eq_true, beq_iff_eq] at own
      exact absurd (consistent.fresh.2.2.2 run member _ own.1) (Nat.lt_irrefl _)
    change (tables.openRuns other.id).length ≤ 1
    rw [none']
    exact Nat.zero_le _

/-- Every write that is not a blind drain keeps runs apart. -/
theorem Exclusive.step {tables' : ScheduleTables} (exclusive : Exclusive tables) (consistent : Consistent tables)
    (step : LedgerStep blind tables tables') (sees : ¬ blind) : Exclusive tables' := by
  cases step with
  | starts schedule scheduledFor member absent free => exact exclusive.starts_run consistent scheduledFor member free
  | buffers schedule scheduledFor member absent policy =>
    have marked : Exclusive (tables.updateSchedule schedule.id fun row => { row with bufferedFor := some scheduledFor }) :=
      exclusive.marks_step fun _ => ⟨rfl, rfl⟩
    obtain ⟨triggers, same, -⟩ := @buffers_frame tables scheduledFor schedule
    rw [same]
    exact marked
  | skips schedule scheduledFor member absent => exact exclusive
  | drains schedule scheduledFor member active waiting free =>
    have started := exclusive.starts_run consistent scheduledFor member (.inr (free.resolve_left sees))
    have marked : Exclusive ((startRun tables schedule scheduledFor).2.updateSchedule schedule.id fun row =>
        { row with bufferedFor := none }) := started.marks_step fun _ => ⟨rfl, rfl⟩
    exact marked
  | opens row numbered unbuffered => exact exclusive.opens_step consistent numbered
  | closes runId status => exact exclusive.closes_step runId status
  | continues runId input => exact exclusive.continues_step runId input
  | creates run => exact exclusive.addRun fun _ _ _ own => nomatch own

end Steps

end DurableExecution.Schedules

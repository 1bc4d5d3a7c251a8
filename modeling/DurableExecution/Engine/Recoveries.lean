import DurableExecution.Engine.ClosedDeliveries
import DurableExecution.Engine.WorldFrames

/-
This file models how the janitor recovers stalled runs, and proves how far apart the recoveries
of one run are and what had become of the run before each of them.
-/

namespace DurableExecution.Engine

open Workflow (JsValue JsNumber plainError Instant)

section Stalled

/-- The longest wait between two recoveries of a run. -/
def maxRecoveryBackoffMs : Nat := 3600000

/-- `least($2 * power(2, least(r.recovery_count, 20)), MAX_RECOVERY_BACKOFF_MS)`. -/
def recoveryBackoff (graceMs recoveryCount : Nat) : Nat := min (graceMs * 2 ^ min recoveryCount 20) maxRecoveryBackoffMs

structure StalledRun where
  runId : RunId
  namespaceId : Nat
  workflowType : String
  deriving DecidableEq

def toStalledRun (row : RunRow) : StalledRun := ⟨row.id, row.namespaceId, row.workflowType⟩

def assertNonNegativeInteger (name : String) (value : JsNumber) : Except JsValue Nat :=
  let refused : Except JsValue Nat :=
    .error (plainError "RangeError" (name ++ " must be a non-negative integer, got " ++ value.text))
  match value with
  | .finite value' => if value'.den = 1 ∧ 0 ≤ value'.num then .ok value'.num.toNat else refused
  | .negZero => .ok 0
  | _ => refused

def TaskState.isOpen : TaskState → Bool
  | .pending | .leased | .quarantined => true
  | .completed => false

/-- When the last event of a run was stored, or else the run. -/
def Database.lastEventAt (db : Database) (row : RunRow) : Int :=
  ((db.storedEvents row.id).map fun stored => stored.createdAt.ms).max?.getD row.createdAt.ms

/-- The predicate of a stalled run. -/
def Database.isStalled (db : Database) (now : Instant) (graceMs : Nat) (queueName : String) (row : RunRow) : Bool :=
  row.status == .running && row.queueName == queueName && row.waitingOn.isNone &&
    (row.lastRecoveredAt.all fun last => decide (last.ms + recoveryBackoff graceMs row.recoveryCount ≤ now.ms)) &&
    decide (db.lastEventAt row ≤ now.ms - graceMs) &&
    !(db.tasks.any fun task => task.runId == row.id && task.state.isOpen) &&
    !(db.timers.any fun timer => timer.runId == row.id && timer.state == .pending)

/-- `order by r.created_at, r.id`. -/
def RunRow.startsBefore (row other : RunRow) : Bool :=
  decide (row.createdAt.ms < other.createdAt.ms) || row.createdAt.ms == other.createdAt.ms && decide (row.id ≤ other.id)

def Database.findStalledRuns (db : Database) (now : Instant) (graceMs : JsNumber) (queueName : String) :
    Except JsValue (List StalledRun) :=
  (assertNonNegativeInteger "graceMs" graceMs).map fun grace =>
    ((db.runs.filter (db.isStalled now grace queueName)).insertionSort fun row other => row.startsBefore other).map toStalledRun

def RunRow.bumped (now : Instant) (row : RunRow) : RunRow :=
  { row with recoveryCount := row.recoveryCount + 1, lastRecoveredAt := some now }

/-- The task that has a worker replay a stalled run. -/
def recoveryTask (now : Instant) (row : RunRow) (id : Nat) : TaskRow :=
  newTask row.namespaceId row.id row.queueName (.workflowTask .stalledRunRecovery) now.ms id

/-- The statement that recovers the stalled runs. -/
def Database.recovered (db : Database) (now : Instant) (graceMs : Nat) (queueName : String) : Database :=
  let stalled := db.runs.filter (db.isStalled now graceMs queueName)
  { db with
    runs := db.runs.map fun row => if db.isStalled now graceMs queueName row then row.bumped now else row
    tasks := db.tasks ++ stalled.mapIdx fun position row => recoveryTask now row (db.nextId + position)
    nextId := db.nextId + stalled.length }

/-- This operation recovers the stalled runs, unless another one holds the lock. -/
def Database.recoverStalledRuns (db : Database) (now : Instant) (graceMs : JsNumber) (queueName : String) (locked : Bool) :
    Except JsValue (List StalledRun) × Database :=
  match assertNonNegativeInteger "graceMs" graceMs with
  | .error error => (.error error, db)
  | .ok grace =>
    if locked then (.ok [], db)
    else (.ok (((db.runs.filter (db.isStalled now grace queueName)).insertionSort fun row other => row.id ≤ other.id).map
      toStalledRun), db.recovered now grace queueName)

end Stalled

section Runs

/-- One recovery of a run, with the task that was enqueued for it. -/
structure Recovery where
  at' : Instant
  graceMs : Nat
  taskId : Nat

/-- What counts for the recoveries of a run: a recovery, or a decision that recorded progress. -/
inductive RecoveryEntry where
  | recovered (recovery : Recovery)
  | progressed

/-- What the statement makes of a run. -/
def Database.recoveryAt (db : Database) (now : Instant) (graceMs : Nat) (queueName : String) (runId : RunId) : Option Recovery :=
  ((db.runs.filter (db.isStalled now graceMs queueName)).findIdx? fun row => row.id == runId).map fun position =>
    ⟨now, graceMs, db.nextId + position⟩

/-- What the operation makes of a run. -/
def Database.recoveryOf (db : Database) (now : Instant) (graceMs : JsNumber) (queueName : String) (locked : Bool)
    (runId : RunId) : Option Recovery :=
  match assertNonNegativeInteger "graceMs" graceMs with
  | .error _ => none
  | .ok grace => if locked then none else db.recoveryAt now grace queueName runId

/-- The run whose decision with commands is about to be marked. -/
def World.progress (world : World) : Action → Option RunId
  | .advanceDecision index surroundings decided =>
    (world.decisions[index]?).bind fun delivery =>
      match delivery.phase with
      | .marking => if surroundings.fails = false ∧ 0 < decided.commands.length then some delivery.task.runId else none
      | _ => none
  | _ => none

/-- The workers and the janitors, with what counted for the recoveries of each run so far, the latest first. -/
inductive JanitorRun (known : String → Option StepDefinition) (start : World) : World → (RunId → List RecoveryEntry) → Prop
  | refl : JanitorRun known start start fun _ => []
  | act {world : World} {logs : RunId → List RecoveryEntry} (run : JanitorRun known start world logs) (now : Instant)
      (action : Action) : JanitorRun known start (world.act known now action) fun runId =>
        if world.progress action = some runId then .progressed :: logs runId else logs runId
  | recover {world : World} {logs : RunId → List RecoveryEntry} (run : JanitorRun known start world logs) (now : Instant)
      (graceMs : JsNumber) (queueName : String) (locked : Bool) :
      JanitorRun known start { world with db := (world.db.recoverStalledRuns now graceMs queueName locked).2 } fun runId =>
        ((world.db.recoveryOf now graceMs queueName locked runId).map .recovered).toList ++ logs runId

/-- The recoveries of a run since its last progress. -/
def recoveriesSince (counted : Nat) : List RecoveryEntry → Nat
  | [] => counted
  | .recovered _ :: rest => recoveriesSince counted rest + 1
  | .progressed :: _ => 0

def lastRecovery (known : Option Instant) : List RecoveryEntry → Option Instant
  | [] => known
  | .recovered recovery :: _ => some recovery.at'
  | .progressed :: rest => lastRecovery known rest

/-- Each recovery keeps its distance from the one before. -/
def Spaced (counted : Nat) (known : Option Instant) : List RecoveryEntry → Prop
  | [] => True
  | .recovered recovery :: rest =>
    (∀ last, lastRecovery known rest = some last →
      last.ms + recoveryBackoff recovery.graceMs (recoveriesSince counted rest) ≤ recovery.at'.ms) ∧ Spaced counted known rest
  | .progressed :: rest => Spaced counted known rest

end Runs

section Keeping

/-- Each run has a name of its own. -/
structure Database.Named (db : Database) : Prop where
  distinct : (db.runs.map RunRow.id).Nodup
  fresh : ∀ row ∈ db.runs, row.id < db.nextId

/-- Every run keeps what counts for its recoveries, and every task stays. -/
structure KeepsRecoveries (db db' : Database) : Prop where
  named : db.Named → db'.Named
  rows : ∀ runId row, db.run? runId = some row → ∃ row', db'.run? runId = some row' ∧
    row'.recoveryCount = row.recoveryCount ∧ row'.lastRecoveredAt = row.lastRecoveredAt
  tasks : TasksStay db.tasks db'.tasks

variable {db db' : Database}

theorem Database.Named.ofRows (named : db.Named) (ids : db'.runs.map RunRow.id = db.runs.map RunRow.id)
    (more : db.nextId ≤ db'.nextId) : db'.Named := by
  refine ⟨ids ▸ named.distinct, fun row listed => ?_⟩
  have id : row.id ∈ db.runs.map RunRow.id := ids ▸ List.mem_map_of_mem listed
  obtain ⟨old, listed', same⟩ := List.mem_map.mp id
  exact same ▸ (named.fresh old listed').trans_le more

theorem KeepsRecoveries.ofRuns (runs : db'.runs = db.runs) (tasks : TasksStay db.tasks db'.tasks) (nextId : db.nextId ≤ db'.nextId) :
    KeepsRecoveries db db' := by
  refine ⟨fun named => ⟨by rw [runs]; exact named.distinct, fun row listed => ?_⟩, fun runId row found => ⟨row, ?_, rfl, rfl⟩,
    tasks⟩
  · rw [runs] at listed
    exact (named.fresh row listed).trans_le nextId
  · rw [Database.run?, runs]
    exact found

theorem KeepsRecoveries.updateRun (db : Database) (runId : RunId) {change : RunRow → RunRow}
    (kept : ∀ row, (change row).id = row.id ∧ (change row).recoveryCount = row.recoveryCount ∧
      (change row).lastRecoveredAt = row.lastRecoveredAt) : KeepsRecoveries db (db.updateRun runId change) := by
  refine ⟨fun named => ?_, fun other row found => ?_, .refl _⟩
  · refine named.ofRows ?_ le_rfl
    rw [Database.updateRun, List.map_map]
    refine List.map_congr_left fun row _ => ?_
    simp only [Function.comp_apply]
    split
    · exact (kept row).1
    · rfl
  · rw [Database.updateRun_run? change fun row => (kept row).1, found]
    split
    · exact ⟨change row, rfl, (kept row).2⟩
    · exact ⟨row, rfl, rfl, rfl⟩

theorem keepsRecoveries_frame : WorldFrame KeepsRecoveries where
  control _ _ := trivial
  refl db := .ofRuns rfl (.refl _) le_rfl
  trans one two three first second := by
    refine ⟨fun named => second.named (first.named named), fun runId row found => ?_, first.tasks.trans second.tasks⟩
    obtain ⟨row', found', count, last⟩ := first.rows runId row found
    obtain ⟨row'', found'', count', last'⟩ := second.rows runId row' found'
    exact ⟨row'', found'', count'.trans count, last'.trans last⟩
  appended _ _ _ := .ofRuns rfl (.refl _) le_rfl
  projected db runId _ _ _ _ := .updateRun db runId fun _ => ⟨rfl, rfl, rfl⟩
  limited db runId _ _ := .updateRun db runId fun _ => ⟨rfl, rfl, rfl⟩
  opened db row newborn := by
    refine ⟨fun named => ⟨?_, ?_⟩, fun runId row' found => ⟨row', ?_, rfl, rfl⟩, .refl _⟩
    · simp only [Database.addRun, List.map_append, List.map_cons, List.map_nil, newborn.id]
      refine named.distinct.append (List.nodup_singleton _) fun id old new => ?_
      obtain ⟨old', listed, same⟩ := List.mem_map.mp old
      exact absurd (same.trans (List.mem_singleton.mp new)) (named.fresh old' listed).ne
    · intro other listed
      rcases List.mem_append.mp listed with old | new
      · exact (named.fresh other old).trans (Nat.lt_succ_self _)
      · rw [List.mem_singleton.mp new, newborn.id]
        exact Nat.lt_succ_self _
    · change (db.runs ++ [row db.nextId]).find? _ = _
      rw [List.find?_append, show db.runs.find? (fun row => row.id == runId) = some row' from found]
      rfl
  tasked db _ _ _ _ _ := .ofRuns rfl (.append _ _) (Nat.le_succ _)
  withdrawn db _ := .ofRuns rfl (.map _ fun task => by split <;> simp) le_rfl
  timed _ _ := .ofRuns rfl (.refl _) le_rfl
  decided _ _ := .ofRuns rfl (.refl _) le_rfl
  resulted _ _ := .ofRuns rfl (.refl _) le_rfl
  attempted _ _ := .ofRuns rfl (.refl _) le_rfl
  queued _ _ _ _ tasks more := .ofRuns rfl tasks more

end Keeping

section Steps

variable {known : String → Option StepDefinition} {world start : World} {db : Database} {runId : RunId} {row : RunRow}
  {now : Instant} {graceMs : Nat} {queueName : String} {logs : RunId → List RecoveryEntry}

theorem markRunWaiting_recoveries (db : Database) (marked : RunId) (waitingOn : Option WaitingOn) (progressed : Bool)
    (found : db.run? runId = some row) : ∃ row', (db.markRunWaiting marked waitingOn progressed).run? runId = some row' ∧
      row'.lastRecoveredAt = row.lastRecoveredAt ∧
      row'.recoveryCount = if progressed = true ∧ marked = runId then 0 else row.recoveryCount := by
  have updated : (db.markRunWaiting marked waitingOn progressed).run? runId = if runId = marked then
      (db.run? runId).map fun row => { row with
        waitingOn := waitingOn
        recoveryCount := if progressed then 0 else row.recoveryCount }
      else db.run? runId := Database.updateRun_run? _ fun _ => rfl
  rw [updated, found]
  by_cases own : runId = marked
  · rw [if_pos own]
    exact ⟨_, rfl, rfl, by simp [own]⟩
  · rw [if_neg own]
    exact ⟨row, rfl, rfl, by simp [Ne.symm own]⟩

theorem World.progress_some {action : Action} {marked : RunId} (progress : world.progress action = some marked) :
    ∃ index surroundings decided delivery, action = .advanceDecision index surroundings decided ∧
      world.decisions[index]? = some delivery ∧ delivery.phase = .marking ∧ surroundings.fails = false ∧
      0 < decided.commands.length ∧ delivery.task.runId = marked := by
  cases action with
  | advanceDecision index surroundings decided =>
    obtain ⟨delivery, listed, going⟩ := Option.bind_eq_some_iff.mp progress
    split at going
    · next phase =>
        rw [Option.ite_none_right_eq_some, Option.some.injEq] at going
        exact ⟨index, surroundings, decided, delivery, rfl, listed, phase, going.1.1, going.1.2, going.2⟩
    · cases going
  | operate | keepUp | dequeue | advanceStep => cases progress

/-- An action leaves the recoveries of all runs alone, or marks a decision that recorded progress. -/
theorem World.act_cases (known : String → Option StepDefinition) (world : World) (now : Instant) (action : Action) :
    world.progress action = none ∧ KeepsRecoveries world.db (world.act known now action).db ∨
      ∃ marked waitingOn, world.progress action = some marked ∧
        (world.act known now action).db = world.db.markRunWaiting marked waitingOn true := by
  cases progress : world.progress action with
  | none =>
    refine .inl ⟨rfl, world.act_kept keepsRecoveries_frame known now action ?_⟩
    rintro index surroundings decided delivery rfl listed phase works
    have idle : decide (0 < decided.commands.length) = false := by
      simpa [World.progress, listed, phase, works] using progress
    rw [idle]
    exact .updateRun _ _ fun _ => ⟨rfl, rfl, rfl⟩
  | some marked =>
    obtain ⟨index, surroundings, decided, delivery, rfl, listed, phase, works, some', rfl⟩ := World.progress_some progress
    refine .inr ⟨_, decided.waitingOn, rfl, ?_⟩
    simp [World.act, listed, DecisionDelivery.advance, phase, works, some']

theorem markRunWaiting_named (named : db.Named) (marked : RunId) (waitingOn : Option WaitingOn) (progressed : Bool) :
    (db.markRunWaiting marked waitingOn progressed).Named := by
  refine named.ofRows ?_ le_rfl
  rw [Database.markRunWaiting, Database.updateRun, List.map_map]
  refine List.map_congr_left fun row _ => ?_
  simp only [Function.comp_apply]
  split <;> rfl

theorem World.act_named (action : Action) (named : world.db.Named) : (world.act known now action).db.Named := by
  rcases world.act_cases known now action with ⟨-, keeps⟩ | ⟨marked, waitingOn, -, stored⟩
  · exact keeps.named named
  · rw [stored]
    exact markRunWaiting_named named _ _ _

theorem World.act_tasks (action : Action) : TasksStay world.db.tasks (world.act known now action).db.tasks := by
  rcases world.act_cases known now action with ⟨-, keeps⟩ | ⟨marked, waitingOn, -, stored⟩
  · exact keeps.tasks
  · rw [stored]
    exact .refl _

/-- An action leaves the recoveries of a run alone, or begins to count them anew. -/
theorem World.act_row (action : Action) (found : world.db.run? runId = some row) :
    ∃ row', (world.act known now action).db.run? runId = some row' ∧ row'.lastRecoveredAt = row.lastRecoveredAt ∧
      row'.recoveryCount = if world.progress action = some runId then 0 else row.recoveryCount := by
  rcases world.act_cases known now action with ⟨idle, keeps⟩ | ⟨marked, waitingOn, progress, stored⟩
  · obtain ⟨row', found', count, last⟩ := keeps.rows runId row found
    exact ⟨row', found', last, by simpa [idle] using count⟩
  · rw [stored, progress]
    simpa using markRunWaiting_recoveries world.db marked waitingOn true found

section Recovered

theorem Database.le_lastEventAt {stored : EventRow} (listed : stored ∈ db.storedEvents row.id) :
    stored.createdAt.ms ≤ db.lastEventAt row := by
  have member := List.mem_map_of_mem (f := fun stored : EventRow => stored.createdAt.ms) listed
  obtain ⟨latest, found⟩ := Option.isSome_iff_exists.mp (List.isSome_max?_of_mem member)
  rw [Database.lastEventAt, found, Option.getD_some]
  exact (List.max?_eq_some_iff.mp found).2 _ member

theorem Database.recovered_run? (found : db.run? runId = some row) :
    (db.recovered now graceMs queueName).run? runId =
      some (if db.isStalled now graceMs queueName row then row.bumped now else row) := by
  have same : ((fun row : RunRow => row.id == runId) ∘ fun row =>
      if db.isStalled now graceMs queueName row then row.bumped now else row) = fun row => row.id == runId := by
    funext row
    simp only [Function.comp_apply]
    split <;> rfl
  have first : db.runs.find? (fun row => row.id == runId) = some row := found
  simp only [Database.recovered, Database.run?, List.find?_map, same, first, Option.map_some]

theorem Database.recovered_named (named : db.Named) : (db.recovered now graceMs queueName).Named := by
  have ids : (db.recovered now graceMs queueName).runs.map RunRow.id = db.runs.map RunRow.id := by
    simp only [Database.recovered, List.map_map]
    refine List.map_congr_left fun row _ => ?_
    simp only [Function.comp_apply]
    split <;> rfl
  exact named.ofRows ids (Nat.le_add_right _ _)

/-- Of the tasks that are enqueued for these runs, one belongs to each of them. -/
theorem recoveryTasks_own {rows : List RunRow} (distinct : (rows.map RunRow.id).Nodup) (listed : row ∈ rows) (now : Instant)
    (firstId : Nat) : ∃ position, rows.findIdx? (fun other => other.id == row.id) = some position ∧
      ((rows.mapIdx fun position other => recoveryTask now other (firstId + position)).filter
        fun task => task.runId == row.id && task.state.isOpen) = [recoveryTask now row (firstId + position)] := by
  induction rows generalizing firstId with
  | nil => cases listed
  | cons first rest ih =>
    simp only [List.map_cons, List.nodup_cons] at distinct
    have shift : (fun position other => recoveryTask now other (firstId + (position + 1))) =
        fun position other => recoveryTask now other (firstId + 1 + position) := by
      funext position other
      rw [Nat.add_assoc, Nat.add_comm 1]
    have opened (other : RunRow) (id : Nat) : (recoveryTask now other id).state.isOpen = true := rfl
    have owner (other : RunRow) (id : Nat) : (recoveryTask now other id).runId = other.id := rfl
    simp only [List.mapIdx_cons, List.findIdx?_cons, shift, List.filter_cons, opened, owner, Bool.and_true, Nat.add_zero]
    rcases List.mem_cons.mp listed with rfl | later
    · refine ⟨0, by simp, ?_⟩
      have others : (rest.mapIdx fun position other => recoveryTask now other (firstId + 1 + position)).filter
          (fun task => task.runId == row.id && task.state.isOpen) = [] := by
        refine List.filter_eq_nil_iff.mpr fun task member matching => distinct.1 ?_
        obtain ⟨position, below, rfl⟩ := List.mem_mapIdx.mp member
        have same : rest[position].id = row.id := beq_iff_eq.mp (Bool.and_eq_true_iff.mp matching).1
        exact same ▸ List.mem_map_of_mem (List.getElem_mem below)
      simp [others]
    · have apart : (first.id == row.id) = false := by
        refine beq_false_of_ne fun same => distinct.1 (same ▸ List.mem_map_of_mem later)
      obtain ⟨position, found, own⟩ := ih distinct.2 later (firstId + 1)
      refine ⟨position + 1, by simp [apart, found], ?_⟩
      rw [apart, if_neg Bool.false_ne_true, own, Nat.add_assoc, Nat.add_comm 1]

/-- A run is recovered when it is stalled, and one task is enqueued for it. -/
theorem Database.recoveryAt_some {recovery : Recovery} (named : db.Named) (found : db.run? runId = some row)
    (recovers : db.recoveryAt now graceMs queueName runId = some recovery) :
    db.isStalled now graceMs queueName row = true ∧ recovery.at' = now ∧ recovery.graceMs = graceMs ∧
      ((db.recovered now graceMs queueName).tasks.filter fun task => task.runId == runId && task.state.isOpen) =
        [recoveryTask now row recovery.taskId] := by
  have id := Database.run?_id found
  obtain ⟨position, placed, rfl⟩ := Option.map_eq_some_iff.mp recovers
  obtain ⟨below, matching, -⟩ := List.findIdx?_eq_some_iff_getElem.mp placed
  obtain ⟨listed, stalled⟩ := List.mem_filter.mp (List.getElem_mem below)
  have same : (db.runs.filter (db.isStalled now graceMs queueName))[position] = row := by
    have named' := Database.mem_run? named.distinct listed
    rw [beq_iff_eq.mp matching, found] at named'
    exact (Option.some.inj named').symm
  rw [same] at stalled listed
  refine ⟨stalled, rfl, rfl, ?_⟩
  have distinct : ((db.runs.filter (db.isStalled now graceMs queueName)).map RunRow.id).Nodup :=
    named.distinct.sublist (List.filter_sublist.map _)
  obtain ⟨position', placed', own⟩ := recoveryTasks_own distinct (List.mem_filter.mpr ⟨listed, stalled⟩) now db.nextId
  rw [id] at placed' own
  obtain rfl := Option.some.inj (placed.symm.trans placed')
  have closed : db.tasks.filter (fun task => task.runId == runId && task.state.isOpen) = [] := by
    simp only [Database.isStalled, Bool.and_eq_true, Bool.not_eq_true'] at stalled
    refine List.filter_eq_nil_iff.mpr fun task member open' => ?_
    have none' := List.any_eq_false.mp stalled.1.2 task member
    rw [id] at none'
    exact none' open'
  rw [Database.recovered, List.filter_append, closed, own, List.nil_append]

theorem Database.recoveryAt_none (found : db.run? runId = some row)
    (spared : db.recoveryAt now graceMs queueName runId = none) : db.isStalled now graceMs queueName row = false := by
  rw [Database.recoveryAt, Option.map_eq_none_iff, List.findIdx?_eq_none_iff] at spared
  by_contra stalled
  have member := List.mem_filter.mpr ⟨Database.run?_mem found, Bool.eq_true_of_not_eq_false stalled⟩
  simpa [Database.run?_id found] using spared row member

/-- The stalled runs that are listed are the ones that would be recovered. -/
theorem Database.findStalledRuns_recovered {accepted : JsNumber} {stalled : List StalledRun} {db' : Database}
    (done : db.recoverStalledRuns now accepted queueName false = (.ok stalled, db')) :
    ∃ listed, db.findStalledRuns now accepted queueName = .ok listed ∧ listed.Perm stalled := by
  rw [Database.recoverStalledRuns] at done
  rw [Database.findStalledRuns]
  cases checked : assertNonNegativeInteger "graceMs" accepted with
  | error error =>
    rw [checked] at done
    cases done
  | ok grace =>
    rw [checked] at done
    cases done
    exact ⟨_, rfl, ((List.perm_insertionSort _ _).trans (List.perm_insertionSort _ _).symm).map _⟩

end Recovered

/-- What a database knows about the recoveries of a run, from a count and a last recovery on. -/
structure Counted (runId : RunId) (counted : Nat) (last : Option Instant) (db : Database) (entries : List RecoveryEntry) :
    Prop where
  named : db.Named
  row : ∃ row, db.run? runId = some row ∧ row.lastRecoveredAt = lastRecovery last entries ∧
    row.recoveryCount = recoveriesSince counted entries
  spaced : Spaced counted last entries
  tasks : ∀ recovery, .recovered recovery ∈ entries → ∃ task ∈ db.tasks, task.id = recovery.taskId ∧ task.runId = runId ∧
    task.payload = .workflowTask .stalledRunRecovery

variable {counted : Nat} {last : Option Instant} {entries : List RecoveryEntry}

theorem Counted.act (holds : Counted runId counted last world.db entries) (action : Action) :
    Counted runId counted last (world.act known now action).db
      (if world.progress action = some runId then .progressed :: entries else entries) := by
  obtain ⟨named, ⟨row, found, since, count⟩, spaced, tasks⟩ := holds
  obtain ⟨row', found', last', count'⟩ : ∃ row', (world.act known now action).db.run? runId = some row' ∧ _ :=
    world.act_row action found
  have stays : ∀ recovery, .recovered recovery ∈ entries → ∃ task ∈ (world.act known now action).db.tasks,
      task.id = recovery.taskId ∧ task.runId = runId ∧ task.payload = .workflowTask .stalledRunRecovery := by
    intro recovery listed
    obtain ⟨task, member, id, owner, payload⟩ := tasks recovery listed
    obtain ⟨task', member', id', owner', payload'⟩ := world.act_tasks action task member
    exact ⟨task', member', id'.trans id, owner'.trans owner, payload'.trans payload⟩
  have named' : (world.act known now action).db.Named := World.act_named action named
  split
  · next progress =>
      rw [if_pos progress] at count'
      exact ⟨named', ⟨row', found', last'.trans since, count'⟩, spaced,
        fun recovery listed => stays recovery (by simpa using listed)⟩
  · next idle =>
      rw [if_neg idle] at count'
      exact ⟨named', ⟨row', found', last'.trans since, count'.trans count⟩, spaced, stays⟩

theorem Counted.recovered (holds : Counted runId counted last db entries) (now : Instant) (graceMs : Nat) (queueName : String) :
    Counted runId counted last (db.recovered now graceMs queueName)
      (((db.recoveryAt now graceMs queueName runId).map .recovered).toList ++ entries) := by
  obtain ⟨named, ⟨row, found, since, count⟩, spaced, tasks⟩ := holds
  have found' : (db.recovered now graceMs queueName).run? runId = some _ := Database.recovered_run? found
  have stay : TasksStay db.tasks (db.recovered now graceMs queueName).tasks := .append _ _
  have stays : ∀ recovery, .recovered recovery ∈ entries → ∃ task ∈ (db.recovered now graceMs queueName).tasks,
      task.id = recovery.taskId ∧ task.runId = runId ∧ task.payload = .workflowTask .stalledRunRecovery := by
    intro recovery listed
    obtain ⟨task, member, id, owner, payload⟩ := tasks recovery listed
    obtain ⟨task', member', id', owner', payload'⟩ := stay task member
    exact ⟨task', member', id'.trans id, owner'.trans owner, payload'.trans payload⟩
  cases recovers : db.recoveryAt now graceMs queueName runId with
  | none =>
    rw [Database.recoveryAt_none found recovers, if_neg Bool.false_ne_true] at found'
    exact ⟨db.recovered_named named, ⟨row, found', since, count⟩, spaced, stays⟩
  | some recovery =>
    obtain ⟨stalled, at', grace, own⟩ := Database.recoveryAt_some named found recovers
    rw [stalled, if_pos rfl] at found'
    refine ⟨Database.recovered_named named, ⟨_, found', ?_, ?_⟩, ⟨fun before earlier => ?_, spaced⟩, fun other listed => ?_⟩
    · simp [RunRow.bumped, lastRecovery, at']
    · simp [RunRow.bumped, recoveriesSince, count]
    · change lastRecovery last entries = some before at earlier
      simp only [Database.isStalled, Bool.and_eq_true, since, earlier, Option.all_some, decide_eq_true_iff, count] at stalled
      rw [at', grace]
      exact stalled.1.1.1.2
    · rcases List.mem_cons.mp listed with same | old
      · obtain rfl := RecoveryEntry.recovered.inj same
        have member : recoveryTask now row other.taskId ∈ (db.recovered now graceMs queueName).tasks :=
          (List.mem_filter.mp (own ▸ List.mem_singleton_self _)).1
        exact ⟨_, member, rfl, Database.run?_id found, rfl⟩
      · exact stays other old

/-- The operation runs its statement, or leaves everything as it is. -/
theorem Database.recoverStalledRuns_cases (db : Database) (now : Instant) (graceMs : JsNumber) (queueName : String) (locked : Bool) :
    (db.recoverStalledRuns now graceMs queueName locked).2 = db ∧ (∀ runId, db.recoveryOf now graceMs queueName locked runId = none) ∨
      ∃ grace, assertNonNegativeInteger "graceMs" graceMs = .ok grace ∧ db.recoverStalledRuns now graceMs queueName locked =
          (.ok (((db.runs.filter (db.isStalled now grace queueName)).insertionSort fun row other => row.id ≤ other.id).map
            toStalledRun), db.recovered now grace queueName) ∧
        ∀ runId, db.recoveryOf now graceMs queueName locked runId = db.recoveryAt now grace queueName runId := by
  unfold Database.recoverStalledRuns Database.recoveryOf
  cases checked : assertNonNegativeInteger "graceMs" graceMs with
  | error error => exact .inl ⟨rfl, fun _ => rfl⟩
  | ok grace =>
    cases locked with
    | true => exact .inl ⟨rfl, fun _ => rfl⟩
    | false => exact .inr ⟨grace, rfl, rfl, fun _ => rfl⟩

theorem Counted.recover (holds : Counted runId counted last db entries) (now : Instant) (graceMs : JsNumber) (queueName : String)
    (locked : Bool) : Counted runId counted last (db.recoverStalledRuns now graceMs queueName locked).2
      (((db.recoveryOf now graceMs queueName locked runId).map .recovered).toList ++ entries) := by
  rcases db.recoverStalledRuns_cases now graceMs queueName locked with ⟨same, spared⟩ | ⟨grace, -, done, recovers⟩
  · rw [same, spared]
    exact holds
  · rw [done, recovers]
    exact holds.recovered now grace queueName

theorem JanitorRun.named (run : JanitorRun known start world logs) (named : start.db.Named) : world.db.Named := by
  induction run with
  | refl => exact named
  | act run now action ih => exact World.act_named action ih
  | @recover world logs run now graceMs queueName locked ih =>
    rcases world.db.recoverStalledRuns_cases now graceMs queueName locked with ⟨same, -⟩ | ⟨grace, -, done, -⟩
    · dsimp only
      rw [same]
      exact ih
    · dsimp only
      rw [done]
      exact Database.recovered_named ih

theorem JanitorRun.keepsCount (run : JanitorRun known start world logs) (holds : Counted runId counted last start.db []) :
    Counted runId counted last world.db (logs runId) := by
  induction run with
  | refl => exact holds
  | act run now action ih => exact ih.act action
  | recover run now graceMs queueName locked ih => exact ih.recover now graceMs queueName locked

/-- Whatever workers and janitors do after a run was first seen, each recovery of it keeps the distance from the one before
that doubles with every recovery since its last progress. A run that is recovered once more is open, waits for nothing and has
been quiet for the grace period, its timers are over and the tasks of all its recoveries are completed; the recovery leaves it
with one open task. -/
theorem recoveries_spaced {before : RunId → List RecoveryEntry} (reached : JanitorRun known emptyWorld start before)
    (found : start.db.run? runId = some row) (run : JanitorRun known start world logs) :
    Spaced row.recoveryCount row.lastRecoveredAt (logs runId) ∧
      ∀ now graceMs queueName locked recovery, world.db.recoveryOf now graceMs queueName locked runId = some recovery →
        ∃ grace row', assertNonNegativeInteger "graceMs" graceMs = .ok grace ∧ world.db.run? runId = some row' ∧
          row'.status = .running ∧ row'.waitingOn = none ∧ row'.queueName = queueName ∧
          (∀ stored ∈ world.db.storedEvents runId, stored.createdAt.ms + grace ≤ now.ms) ∧
          (∀ timer ∈ world.db.timers, timer.runId = runId → timer.state ≠ .pending) ∧
          (∀ earlier, .recovered earlier ∈ logs runId → ∃ task ∈ world.db.tasks, task.id = earlier.taskId ∧
            task.runId = runId ∧ task.payload = .workflowTask .stalledRunRecovery ∧ task.state = .completed) ∧
          ∃ stalled db', world.db.recoverStalledRuns now graceMs queueName locked = (.ok stalled, db') ∧
            toStalledRun row' ∈ stalled ∧ (db'.tasks.filter fun task => task.runId == runId && task.state.isOpen) =
              [recoveryTask now row' recovery.taskId] := by
  have holds : Counted runId row.recoveryCount row.lastRecoveredAt start.db [] :=
    ⟨reached.named ⟨by simp [emptyWorld, emptyDatabase], by simp [emptyWorld, emptyDatabase]⟩, ⟨row, found, rfl, rfl⟩, trivial,
      by simp⟩
  have counted := run.keepsCount holds
  refine ⟨counted.spaced, fun now graceMs queueName locked recovery recovers => ?_⟩
  rcases world.db.recoverStalledRuns_cases now graceMs queueName locked with ⟨-, spared⟩ | ⟨grace, accepted, done, recovered⟩
  · rw [spared] at recovers
    cases recovers
  rw [recovered] at recovers
  obtain ⟨row', found', -, -⟩ := counted.row
  obtain ⟨stalled, -, -, own⟩ := Database.recoveryAt_some counted.named found' recovers
  have listed' : toStalledRun row' ∈ ((world.db.runs.filter (world.db.isStalled now grace queueName)).insertionSort
      fun row other => row.id ≤ other.id).map toStalledRun :=
    List.mem_map_of_mem (List.mem_insertionSort _ |>.mpr (List.mem_filter.mpr ⟨Database.run?_mem found', stalled⟩))
  simp only [Database.isStalled, Bool.and_eq_true, beq_iff_eq, decide_eq_true_iff, Bool.not_eq_true', List.any_eq_false,
    Option.isNone_iff_eq_none] at stalled
  obtain ⟨⟨⟨⟨⟨⟨running, queue⟩, waits⟩, -⟩, quiet⟩, closed⟩, fired⟩ := stalled
  have id := Database.run?_id found'
  refine ⟨grace, row', accepted, found', running, waits, queue, fun stored listed => ?_, fun timer listed owner pending => ?_,
    fun earlier listed => ?_, _, _, done, listed', own⟩
  · have latest := (world.db.le_lastEventAt (id ▸ listed)).trans quiet
    omega
  · exact fired timer listed ⟨owner.trans id.symm, pending⟩
  · obtain ⟨task, member, task', owner, payload⟩ := counted.tasks earlier listed
    refine ⟨task, member, task', owner, payload, ?_⟩
    have shut : ¬ task.state.isOpen = true := fun open' => closed task member ⟨owner.trans id.symm, open'⟩
    cases state : task.state with
    | completed => rfl
    | pending | leased | quarantined => simp [state, TaskState.isOpen] at shut

end Steps

theorem fourSeconds_lower : -Workflow.maxTimeMs ≤ 4000 := by decide

theorem fourSeconds_upper : 4000 ≤ Workflow.maxTimeMs := by decide

/-- The task of a new run is delivered and acknowledged, without a decision. -/
def forgotten : World :=
  emptyWorld.acts knownSteps
    [(.epoch, startsOnMain), (.epoch, .dequeue ⟨3, threeTimes_pos⟩ dueOnMain), (.epoch, .keepUp (.ack 1 2))]

/-- A janitor recovers the run, and its task is lost in the same way. -/
def forgottenTwice : World :=
  ({ forgotten with db := (forgotten.db.recoverStalledRuns later (.finite 1000) "main" false).2 } : World).acts knownSteps
    [(later, .dequeue ⟨3, threeTimes_pos⟩ dueOnMain), (later, .keepUp (.ack 3 4))]

theorem recoveries_spaced_twice : forgottenTwice.db.recoveryOf ⟨4000, fourSeconds_lower, fourSeconds_upper⟩ (.finite 1000)
      "main" false 0 = some ⟨⟨4000, fourSeconds_lower, fourSeconds_upper⟩, 1000, 5⟩ ∧
    ∃ task ∈ forgottenTwice.db.tasks, task.id = 3 ∧ task.state = .completed := by
  have reached : JanitorRun knownSteps emptyWorld (emptyWorld.act knownSteps .epoch startsOnMain) _ :=
    .act .refl .epoch startsOnMain
  have once : JanitorRun knownSteps (emptyWorld.act knownSteps .epoch startsOnMain) forgotten _ :=
    .act (.act .refl .epoch (.dequeue ⟨3, threeTimes_pos⟩ dueOnMain)) .epoch (.keepUp (.ack 1 2))
  have twice : JanitorRun knownSteps (emptyWorld.act knownSteps .epoch startsOnMain) forgottenTwice _ :=
    .act (.act (.recover once later (.finite 1000) "main" false) later (.dequeue ⟨3, threeTimes_pos⟩ dueOnMain)) later
      (.keepUp (.ack 3 4))
  have recovers : forgottenTwice.db.recoveryOf ⟨4000, fourSeconds_lower, fourSeconds_upper⟩ (.finite 1000) "main" false 0 =
      some ⟨⟨4000, fourSeconds_lower, fourSeconds_upper⟩, 1000, 5⟩ := rfl
  have found : (emptyWorld.act knownSteps .epoch startsOnMain).db.run? 0 = some _ := rfl
  refine ⟨recovers, ?_⟩
  obtain ⟨-, -, -, -, -, -, -, -, -, tasks, -⟩ := (recoveries_spaced reached found twice).2 _ _ _ _ _ recovers
  obtain ⟨task, listed, id, -, -, completed⟩ := tasks ⟨later, 1000, 3⟩ (List.mem_of_getElem? (i := 0) rfl)
  exact ⟨task, listed, id, completed⟩


end DurableExecution.Engine

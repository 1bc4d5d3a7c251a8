import Mathlib.Logic.Relation
import DurableExecution.Engine.TaskQueue

/-
This file proves that task leases are safe: over all runs of the queue's operations, the
janitor's and the closing of runs, a lease is held by one worker at a time.
-/

namespace DurableExecution.Engine

open Workflow (JsValue WorkflowEvent Instant)
open Transaction
open Relation (ReflTransGen)

/-- One delivery of a task: its token, when its lease expires, and whether its holder let go. -/
structure Lease where
  taskId : Nat
  token : Nat
  expiresAt : Int
  released : Bool

/-- The database with what happened to its tasks so far: every delivery, every successful
acknowledgement, and how often each task lost its lease since it was created or released. -/
structure QueueState where
  db : Database
  clock : Instant
  leases : List Lease
  acks : List Nat
  lost : Nat → Nat

inductive QueueOp where
  | enqueue (namespaceId : Nat) (runId : RunId) (queueName : String) (payload : TaskPayload) (delayMs : Nat)
  | dequeue (options : DequeueOptions)
  | ack (taskId leaseToken : Nat)
  | nack (taskId leaseToken delayMs : Nat)
  | quarantine (taskId leaseToken : Nat)
  | extend (taskId leaseToken visibilityTimeoutMs : Nat)
  | addAndAck (input : AddDeadLetterInput) (lease : TaskLease) (options : RecorderOptions)
      (result : RecordStepResultInput) (budget : Option Nat)
  | reclaimOrphanedLeases (locked : Nat → Bool)
  | releaseQuarantined (taskId : Nat)
  | closeRun (runId : RunId) (events : List WorkflowEvent) (budget : Option Nat)

/-- What an operation answers: the tasks it delivered or whether it changed its task. -/
inductive QueueAnswer where
  | done
  | took (tasks : List LeasedTask)
  | changed (yes : Bool)

def answersOk {A : Type} : Except (Fault EngineError) A → Bool
  | .ok _ => true
  | .error _ => false

/-- The transaction that records the events of a run that closes, and closes it. -/
def closeWith (runId : RunId) (events : List WorkflowEvent) (now : Instant) : Tx Unit := do
  discard (appendNext runId events now)
  closeRun runId now

section System

variable (poisonThreshold : PoisonThreshold) (now : Instant)

def QueueOp.run (db : Database) : QueueOp → QueueAnswer × Database
  | .enqueue namespaceId runId queueName payload delayMs =>
    (.done, (db.enqueue now namespaceId runId queueName payload delayMs).2)
  | .dequeue options => let taken := db.dequeue now poisonThreshold options; (.took taken.1, taken.2)
  | .ack taskId leaseToken => let acked := db.ack taskId leaseToken; (.changed acked.1, acked.2)
  | .nack taskId leaseToken delayMs => let nacked := db.nack now taskId leaseToken delayMs; (.changed nacked.1, nacked.2)
  | .quarantine taskId leaseToken => let parked := db.quarantine taskId leaseToken; (.changed parked.1, parked.2)
  | .extend taskId leaseToken visibilityTimeoutMs =>
    let extended := db.extend now taskId leaseToken visibilityTimeoutMs; (.changed extended.1, extended.2)
  | .addAndAck input lease options result budget =>
    let added := Engine.addAndAck input lease (discard (recordStepResultOn options result)) now budget db
    (.changed (answersOk added.1), added.2)
  | .reclaimOrphanedLeases locked => (.done, (db.reclaimOrphanedLeases now poisonThreshold locked).2)
  | .releaseQuarantined taskId =>
    let released := db.releaseQuarantined now taskId; (.changed released.1, released.2)
  | .closeRun runId events budget => (.done, (withTransaction (closeWith runId events now) budget db).2)

/-- The lease that an operation of its holder names. -/
def QueueOp.lease : QueueOp → Option TaskLease
  | .ack taskId leaseToken | .nack taskId leaseToken _ | .quarantine taskId leaseToken
  | .extend taskId leaseToken _ => some ⟨taskId, leaseToken⟩
  | .addAndAck _ lease .. => some lease
  | _ => none

/-- Operations that acknowledge a task. -/
def QueueOp.acks : QueueOp → Bool
  | .ack .. | .addAndAck .. => true
  | _ => false

def Lease.isOf (lease : Lease) (holder : TaskLease) : Bool :=
  lease.taskId == holder.taskId && lease.token == holder.leaseToken

/-- What a holder's successful operation means for its lease. -/
def Lease.afterwards (lease : Lease) (op : QueueOp) : Lease :=
  match op with
  | .extend _ _ visibilityTimeoutMs => { lease with expiresAt := now.ms + visibilityTimeoutMs }
  | _ => { lease with released := true }

/-- The token of a task. -/
def Database.heldToken (db : Database) (taskId : Nat) : Option Nat :=
  (db.tasks.find? fun task => task.id == taskId).bind TaskRow.leaseToken

/-- How often a task lost its lease, after an operation that may take it over. -/
def Database.lostAfter (db db' : Database) (lost : Nat → Nat) (taskId : Nat) : Nat :=
  lost taskId + if (db.heldToken taskId).isSome && db'.heldToken taskId != db.heldToken taskId then 1 else 0

/-- The deliveries of a `dequeue`. -/
def leasesOf (tasks : List LeasedTask) : List Lease :=
  tasks.map fun task => ⟨task.id, task.leaseToken, task.visibleAt, false⟩

/-- The lost leases after an operation. A release of a parked task starts its count again. -/
def QueueState.lostBy (state : QueueState) (op : QueueOp) (answer : QueueAnswer) (db' : Database) : Nat → Nat :=
  match op, answer with
  | .releaseQuarantined released, .changed true => fun taskId => if taskId = released then 0 else state.lost taskId
  | .dequeue _, _ | .reclaimOrphanedLeases _, _ => state.db.lostAfter db' state.lost
  | _, _ => state.lost

/-- One operation, and what it adds to what happened so far. -/
def QueueState.step (state : QueueState) (op : QueueOp) : QueueState :=
  let ran := op.run poisonThreshold now state.db
  { db := ran.2
    clock := now
    leases := match ran.1, op.lease with
      | .took tasks, _ => state.leases ++ leasesOf tasks
      | .changed true, some holder =>
        state.leases.map fun lease => if lease.isOf holder then lease.afterwards now op else lease
      | _, _ => state.leases
    acks := match ran.1, op.lease with
      | .changed true, some holder => if op.acks then state.acks ++ [holder.taskId] else state.acks
      | _, _ => state.acks
    lost := state.lostBy op ran.1 ran.2 }

/-- The tasks that an operation hands out. -/
def QueueState.delivered (state : QueueState) (op : QueueOp) : List LeasedTask :=
  match (op.run poisonThreshold now state.db).1 with
  | .took tasks => tasks
  | _ => []

end System

/-- Operations run one after the other, in any order, while the clock does not go back. -/
inductive QueueRun (poisonThreshold : PoisonThreshold) : QueueState → Prop
  | initial (db : Database) (clock : Instant) (empty : db.tasks = []) :
      QueueRun poisonThreshold ⟨db, clock, [], [], fun _ => 0⟩
  | step {state : QueueState} (run : QueueRun poisonThreshold state) (op : QueueOp) (now : Instant)
      (later : state.clock.ms ≤ now.ms) : QueueRun poisonThreshold (state.step poisonThreshold now op)

/-- The latest delivery of a task. -/
def latestLease (leases : List Lease) (taskId : Nat) : Option Lease :=
  (leases.filter fun lease => lease.taskId == taskId).getLast?

/-- What holds between two operations. -/
structure LeaseInvariant (poisonThreshold : PoisonThreshold) (state : QueueState) : Prop where
  ids : (state.db.tasks.map TaskRow.id).Nodup
  fresh : ∀ task ∈ state.db.tasks, task.id < state.db.nextId
  leased : ∀ task ∈ state.db.tasks, task.state = .leased ↔ task.leaseToken.isSome = true
  issued : ∀ lease ∈ state.leases, lease.token < state.db.nextId
  current : ∀ task ∈ state.db.tasks, ∀ token, task.leaseToken = some token →
    latestLease state.leases task.id = some ⟨task.id, token, task.visibleAt, false⟩
  running : ∀ lease ∈ state.leases, lease.released = false → state.clock.ms < lease.expiresAt →
    ∃ task ∈ state.db.tasks, task.id = lease.taskId ∧ task.leaseToken = some lease.token ∧
      task.visibleAt = lease.expiresAt
  acked : ∀ taskId ∈ state.acks, ∃ task ∈ state.db.tasks, task.id = taskId ∧ task.state = .completed
  ackedOnce : state.acks.Nodup
  counted : ∀ task ∈ state.db.tasks, task.reclaimCount = state.lost task.id
  poisoned : ∀ task ∈ state.db.tasks, poisonThreshold.value ≤ task.reclaimCount → task.state = .quarantined
  unknown : ∀ taskId, state.db.nextId ≤ taskId → state.lost taskId = 0

section Rows

variable {db : Database} {task other : TaskRow}

theorem mem_ids (ids : (db.tasks.map TaskRow.id).Nodup) (first : task ∈ db.tasks) (second : other ∈ db.tasks)
    (same : task.id = other.id) : task = other :=
  List.inj_on_of_nodup_map ids first second same

theorem heldToken_eq (ids : (db.tasks.map TaskRow.id).Nodup) (member : task ∈ db.tasks) : db.heldToken task.id = task.leaseToken := by
  have found : db.tasks.find? (fun other => other.id == task.id) = some task := by
    cases found : db.tasks.find? fun other => other.id == task.id with
    | none =>
      have absent := List.find?_eq_none.mp found task member
      simp at absent
    | some other =>
      have same : other.id = task.id := by simpa using List.find?_some found
      rw [mem_ids ids (List.mem_of_find?_eq_some found) member same]
  rw [Database.heldToken, found]
  rfl

theorem heldToken_none {taskId : Nat} (absent : ∀ task ∈ db.tasks, task.id ≠ taskId) : db.heldToken taskId = none := by
  have found : db.tasks.find? (fun task => task.id == taskId) = none := by
    simpa using absent
  rw [Database.heldToken, found]
  rfl

theorem TaskRow.isHeldBy_iff {taskId leaseToken : Nat} : task.isHeldBy taskId leaseToken = true ↔
    task.id = taskId ∧ task.leaseToken = some leaseToken ∧ task.state = .leased := by
  simp [TaskRow.isHeldBy, and_assoc]

/-- An update of one task by its id changes that task or nothing. -/
theorem updateTasks_cases {matching : TaskRow → Bool} (change : TaskRow → TaskRow) {taskId : Nat}
    (ids : (db.tasks.map TaskRow.id).Nodup) (named : ∀ task, matching task = true → task.id = taskId) :
    ((db.updateTasks matching change).1 == 1) = false ∧ (db.updateTasks matching change).2 = db ∨
      ((db.updateTasks matching change).1 == 1) = true ∧ ∃ task ∈ db.tasks, matching task = true ∧ task.id = taskId ∧
        ∀ other ∈ db.tasks, matching other = true → other = task := by
  by_cases present : ∃ task ∈ db.tasks, matching task = true
  · obtain ⟨task, member, matches'⟩ := present
    have only (other : TaskRow) (listed : other ∈ db.tasks) (matches'' : matching other = true) : other = task :=
      mem_ids ids listed member ((named other matches'').trans (named task matches').symm)
    have one : db.tasks.countP matching = 1 := by
      have positive : 0 < db.tasks.countP matching := List.countP_pos_iff.mpr ⟨task, member, matches'⟩
      have few : db.tasks.countP matching ≤ db.tasks.countP (fun other => other.id == taskId) :=
        List.countP_mono_left fun other _ matches'' => by simpa using named other matches''
      have single := List.nodup_iff_count_le_one.mp ids taskId
      rw [List.count_eq_countP, List.countP_map] at single
      exact le_antisymm (few.trans single) positive
    right
    refine ⟨by simp [Database.updateTasks, one], task, member, matches', named task matches', only⟩
  · simp only [not_exists, not_and, Bool.not_eq_true] at present
    left
    have none : db.tasks.countP matching = 0 := by
      rw [List.countP_eq_zero]
      intro task member
      rw [present task member]
      exact Bool.false_ne_true
    have same : db.tasks.map (fun task => if matching task then change task else task) = db.tasks := by
      conv_rhs => rw [← List.map_id db.tasks]
      refine List.map_congr_left fun task member => ?_
      rw [present task member]
      rfl
    refine ⟨by simp [Database.updateTasks, none], ?_⟩
    simp only [Database.updateTasks, same]

end Rows

section Leases

variable {leases : List Lease} {taskId : Nat} {holder : TaskLease}

theorem latestLease_mem {lease : Lease} (latest : latestLease leases taskId = some lease) : lease ∈ leases ∧ lease.taskId = taskId := by
  have listed := List.mem_of_getLast? latest
  simpa using List.mem_filter.mp listed

/-- Later deliveries of other tasks do not count. -/
theorem latestLease_append_other {more : List Lease} (apart : ∀ lease ∈ more, lease.taskId ≠ taskId) :
    latestLease (leases ++ more) taskId = latestLease leases taskId := by
  have none : more.filter (fun lease => lease.taskId == taskId) = [] :=
    List.filter_eq_nil_iff.mpr fun lease member => by simpa using apart lease member
  rw [latestLease, List.filter_append, none, List.append_nil]
  rfl

/-- The latest delivery after its lease was changed. -/
theorem latestLease_map (change : Lease → Lease) (keeps : ∀ lease, (change lease).taskId = lease.taskId) :
    latestLease (leases.map change) taskId = (latestLease leases taskId).map change := by
  have filtered : (leases.map change).filter (fun lease => lease.taskId == taskId) =
      (leases.filter fun lease => lease.taskId == taskId).map change := by
    rw [List.filter_map]
    congr 1
    refine List.filter_congr fun lease _ => ?_
    simp [keeps]
  rw [latestLease, filtered, List.getLast?_map]
  rfl

end Leases

section Holding

/-- An operation changed the one task that its caller holds. -/
structure Touches (db db' : Database) (holder : TaskLease) (matching : TaskRow → Bool)
    (change : TaskRow → TaskRow) : Prop where
  one : ∃ task ∈ db.tasks, matching task = true
  held : ∀ task, matching task = true → task.isHeldBy holder.taskId holder.leaseToken = true
  tasks : db'.tasks = db.tasks.map fun task => if matching task then change task else task
  ids : db.nextId ≤ db'.nextId

/-- A change with which a holder lets go of its lease. -/
def LetsGo (change : TaskRow → TaskRow) : Prop := ∀ task, (change task).id = task.id ∧
  (change task).leaseToken = none ∧ (change task).state ≠ .leased ∧ (change task).reclaimCount = task.reclaimCount

end Holding

section Preservation

variable {poisonThreshold : PoisonThreshold} {state : QueueState} {now : Instant}

/-- Time passes. -/
theorem LeaseInvariant.tick (invariant : LeaseInvariant poisonThreshold state) (later : state.clock.ms ≤ now.ms) :
    LeaseInvariant poisonThreshold { state with clock := now } :=
  { invariant with running := fun lease member open' before =>
      invariant.running lease member open' (lt_of_le_of_lt later before) }

/-- All rows change in place, and some of them are delivered. -/
theorem LeaseInvariant.mapAll (invariant : LeaseInvariant poisonThreshold state) (change : TaskRow → TaskRow)
    {leases : List Lease} {lost : Nat → Nat} {db' : Database} (tasks : db'.tasks = state.db.tasks.map change)
    (ids : state.db.nextId ≤ db'.nextId) (named : ∀ task, (change task).id = task.id)
    (leased : ∀ task ∈ state.db.tasks, (change task).state = .leased ↔ (change task).leaseToken.isSome = true)
    (issued : ∀ lease ∈ leases, lease.token < db'.nextId)
    (current : ∀ task ∈ state.db.tasks, ∀ token, (change task).leaseToken = some token →
      latestLease leases task.id = some ⟨task.id, token, (change task).visibleAt, false⟩)
    (running : ∀ lease ∈ leases, lease.released = false → state.clock.ms < lease.expiresAt →
      ∃ task ∈ state.db.tasks, task.id = lease.taskId ∧ (change task).leaseToken = some lease.token ∧
        (change task).visibleAt = lease.expiresAt)
    (completed : ∀ task ∈ state.db.tasks, task.state = .completed → (change task).state = .completed)
    (counted : ∀ task ∈ state.db.tasks, (change task).reclaimCount = lost task.id)
    (poisoned : ∀ task ∈ state.db.tasks, poisonThreshold.value ≤ (change task).reclaimCount →
      (change task).state = .quarantined)
    (unknown : ∀ taskId, db'.nextId ≤ taskId → lost taskId = 0) :
    LeaseInvariant poisonThreshold { state with db := db', leases := leases, lost := lost } := by
  have rows {row : TaskRow} (listed : row ∈ db'.tasks) : ∃ task ∈ state.db.tasks, change task = row := by
    rw [tasks] at listed
    exact List.mem_map.mp listed
  have stays {task : TaskRow} (listed : task ∈ state.db.tasks) : change task ∈ db'.tasks := by
    rw [tasks]
    exact List.mem_map_of_mem listed
  constructor
  · have same : db'.tasks.map TaskRow.id = state.db.tasks.map TaskRow.id := by
      rw [tasks, List.map_map]
      exact List.map_congr_left fun task _ => named task
    exact same ▸ invariant.ids
  · intro row listed
    obtain ⟨task, listed', rfl⟩ := rows listed
    rw [named]
    exact lt_of_lt_of_le (invariant.fresh task listed') ids
  · intro row listed
    obtain ⟨task, listed', rfl⟩ := rows listed
    exact leased task listed'
  · exact issued
  · intro row listed token holds
    obtain ⟨task, listed', rfl⟩ := rows listed
    rw [named]
    exact current task listed' token holds
  · intro lease listed open' before
    obtain ⟨task, found, id, rest⟩ := running lease listed open' before
    exact ⟨change task, stays found, (named task).trans id, rest⟩
  · intro taskId listed
    obtain ⟨task, found, id, completed'⟩ := invariant.acked taskId listed
    exact ⟨change task, stays found, (named task).trans id, completed task found completed'⟩
  · exact invariant.ackedOnce
  · intro row listed
    obtain ⟨task, listed', rfl⟩ := rows listed
    rw [named]
    exact counted task listed'
  · intro row listed
    obtain ⟨task, listed', rfl⟩ := rows listed
    exact poisoned task listed'
  · exact unknown

/-- Rows change in place without a delivery. -/
theorem LeaseInvariant.mapRows (invariant : LeaseInvariant poisonThreshold state) (change : TaskRow → TaskRow)
    {lost : Nat → Nat} {db' : Database} (tasks : db'.tasks = state.db.tasks.map change)
    (ids : state.db.nextId ≤ db'.nextId) (named : ∀ task, (change task).id = task.id)
    (leased : ∀ task ∈ state.db.tasks, (change task).state = .leased ↔ (change task).leaseToken.isSome = true)
    (earlier : ∀ task ∈ state.db.tasks, ∀ token, (change task).leaseToken = some token →
      task.leaseToken = some token ∧ (change task).visibleAt = task.visibleAt)
    (running : ∀ task ∈ state.db.tasks, ∀ token, task.leaseToken = some token → state.clock.ms < task.visibleAt →
      (change task).leaseToken = some token ∧ (change task).visibleAt = task.visibleAt)
    (completed : ∀ task ∈ state.db.tasks, task.state = .completed → (change task).state = .completed)
    (counted : ∀ task ∈ state.db.tasks, (change task).reclaimCount = lost task.id)
    (poisoned : ∀ task ∈ state.db.tasks, poisonThreshold.value ≤ (change task).reclaimCount →
      (change task).state = .quarantined)
    (unknown : ∀ taskId, db'.nextId ≤ taskId → lost taskId = 0) :
    LeaseInvariant poisonThreshold { state with db := db', lost := lost } := by
  have before (lease : Lease) (listed : lease ∈ state.leases) : lease.token < db'.nextId :=
    lt_of_lt_of_le (invariant.issued lease listed) ids
  refine invariant.mapAll change tasks ids named leased before ?_ ?_ completed counted poisoned unknown
  · intro task listed token holds
    obtain ⟨holds', visible⟩ := earlier task listed token holds
    rw [visible]
    exact invariant.current task listed token holds'
  · intro lease listed open' unexpired
    obtain ⟨task, found, id, token, visible⟩ := invariant.running lease listed open' unexpired
    obtain ⟨token', visible'⟩ := running task found lease.token token (visible ▸ unexpired)
    exact ⟨task, found, id, token', visible'.trans visible⟩

/-- A completed task is acknowledged for the first time. -/
theorem LeaseInvariant.acknowledge (invariant : LeaseInvariant poisonThreshold state) {task : TaskRow}
    (member : task ∈ state.db.tasks) (completed : task.state = .completed) (unacked : task.id ∉ state.acks) :
    LeaseInvariant poisonThreshold { state with acks := state.acks ++ [task.id] } := by
  refine { invariant with acked := ?_, ackedOnce := ?_ }
  · intro taskId listed
    rcases List.mem_append.mp listed with earlier | added
    · exact invariant.acked taskId earlier
    · exact ⟨task, member, (List.mem_singleton.mp added).symm, completed⟩
  · change (state.acks ++ [task.id]).Nodup
    rw [List.nodup_append]
    refine ⟨invariant.ackedOnce, List.nodup_singleton _, fun taskId earlier other added => ?_⟩
    rw [List.mem_singleton.mp added]
    rintro rfl
    exact unacked earlier

section Holding

variable {holder : TaskLease} {db' : Database} {matching : TaskRow → Bool} {change : TaskRow → TaskRow}

/-- Only one task is held by a lease. -/
theorem Touches.only (touches : Touches state.db db' holder matching change)
    (ids : (state.db.tasks.map TaskRow.id).Nodup) : ∃ task ∈ state.db.tasks, matching task = true ∧
      task.id = holder.taskId ∧ task.leaseToken = some holder.leaseToken ∧ task.state = .leased ∧
      ∀ other ∈ state.db.tasks, other = task ∨ other.id ≠ holder.taskId ∧ matching other = false := by
  obtain ⟨task, member, matches'⟩ := touches.one
  obtain ⟨id, token, leased⟩ := TaskRow.isHeldBy_iff.mp (touches.held task matches')
  refine ⟨task, member, matches', id, token, leased, fun other listed => ?_⟩
  by_cases same : other.id = holder.taskId
  · exact .inl (mem_ids ids listed member (same.trans id.symm))
  · refine .inr ⟨same, ?_⟩
    by_contra held
    rw [Bool.not_eq_false] at held
    exact same (TaskRow.isHeldBy_iff.mp (touches.held other held)).1

/-- The lease of another task is not the holder's. -/
theorem Lease.isOf_apart {lease : Lease} (apart : lease.taskId ≠ holder.taskId) : ¬ lease.isOf holder = true := by
  intro same
  simp only [Lease.isOf, Bool.and_eq_true, beq_iff_eq] at same
  exact apart same.1

theorem Lease.isOf_iff {lease : Lease} : lease.isOf holder = true ↔ lease.taskId = holder.taskId ∧ lease.token = holder.leaseToken := by
  simp [Lease.isOf]

/-- The holder of a lease lets go of it. -/
theorem LeaseInvariant.letGo (invariant : LeaseInvariant poisonThreshold state) (lets : LetsGo change)
    (touches : Touches state.db db' holder (·.isHeldBy holder.taskId holder.leaseToken) change) :
    LeaseInvariant poisonThreshold { state with
      db := db'
      leases := state.leases.map fun lease => if lease.isOf holder then { lease with released := true } else lease } := by
  obtain ⟨task, member, held, id, token, leased, others⟩ := touches.only invariant.ids
  have rows {other : TaskRow} (listed : other ∈ state.db.tasks) :
      other = task ∧ (if other.isHeldBy holder.taskId holder.leaseToken then change other else other) = change task ∨
        other.id ≠ holder.taskId ∧
          (if other.isHeldBy holder.taskId holder.leaseToken then change other else other) = other := by
    rcases others other listed with rfl | ⟨apart, unheld⟩
    · exact .inl ⟨rfl, if_pos held⟩
    · exact .inr ⟨apart, if_neg (by rw [unheld]; exact Bool.false_ne_true)⟩
  have keeps (lease : Lease) :
      (if lease.isOf holder then { lease with released := true } else lease).taskId = lease.taskId := by
    split <;> rfl
  refine invariant.mapAll _ touches.tasks touches.ids ?_ ?_ ?_ ?_ ?_ ?_ ?_ ?_ ?_
  · intro other
    split
    · exact (lets other).1
    · rfl
  · intro other listed
    rcases rows listed with ⟨-, same⟩ | ⟨-, same⟩
    · rw [same, (lets task).2.1]
      exact ⟨fun leased => absurd leased (lets task).2.2.1, nofun⟩
    · rw [same]
      exact invariant.leased other listed
  · intro lease listed
    obtain ⟨old, listed', rfl⟩ := List.mem_map.mp listed
    have before := lt_of_lt_of_le (invariant.issued old listed') touches.ids
    split <;> exact before
  · intro other listed token' holds
    rcases rows listed with ⟨-, same⟩ | ⟨apart, same⟩
    · rw [same, (lets task).2.1] at holds
      cases holds
    · rw [same] at holds ⊢
      rw [latestLease_map _ keeps, invariant.current other listed token' holds, Option.map_some,
        if_neg (Lease.isOf_apart apart)]
  · intro lease listed open' unexpired
    obtain ⟨old, listed', rfl⟩ := List.mem_map.mp listed
    by_cases own : old.isOf holder = true
    · rw [if_pos own] at open'
      cases open'
    · rw [if_neg own] at open' unexpired ⊢
      obtain ⟨other, found, id', holds, visible⟩ := invariant.running old listed' open' unexpired
      rcases rows found with ⟨rfl, -⟩ | ⟨-, same⟩
      · exact absurd (Lease.isOf_iff.mpr ⟨id'.symm.trans id, Option.some.inj (holds.symm.trans token)⟩) own
      · exact ⟨other, found, id', by rw [same]; exact holds, by rw [same]; exact visible⟩
  · intro other listed completed
    rcases rows listed with ⟨rfl, -⟩ | ⟨-, same⟩
    · cases completed.symm.trans leased
    · rw [same]
      exact completed
  · intro other listed
    rcases rows listed with ⟨rfl, same⟩ | ⟨-, same⟩
    · rw [same, (lets other).2.2.2]
      exact invariant.counted other listed
    · rw [same]
      exact invariant.counted other listed
  · intro other listed poisoned
    rcases rows listed with ⟨rfl, same⟩ | ⟨-, same⟩
    · rw [same, (lets other).2.2.2] at poisoned
      cases leased.symm.trans (invariant.poisoned other listed poisoned)
    · rw [same] at poisoned ⊢
      exact invariant.poisoned other listed poisoned
  · exact fun taskId beyond => invariant.unknown taskId (le_trans touches.ids beyond)

/-- A holder extends its lease. -/
theorem LeaseInvariant.extend (invariant : LeaseInvariant poisonThreshold state) {visibleAt : Int}
    (touches : Touches state.db db' holder matching fun task => { task with visibleAt := visibleAt }) :
    LeaseInvariant poisonThreshold { state with
      db := db'
      leases := state.leases.map fun lease =>
        if lease.isOf holder then { lease with expiresAt := visibleAt } else lease } := by
  obtain ⟨task, member, held, id, token, leased, others⟩ := touches.only invariant.ids
  have rows (other : TaskRow) : ∃ visibleAt', (if matching other then { other with visibleAt := visibleAt } else
      other) = { other with visibleAt := visibleAt' } := by
    split
    · exact ⟨visibleAt, rfl⟩
    · exact ⟨other.visibleAt, rfl⟩
  have keeps (lease : Lease) :
      (if lease.isOf holder then { lease with expiresAt := visibleAt } else lease).taskId = lease.taskId := by
    split <;> rfl
  refine invariant.mapAll _ touches.tasks touches.ids ?_ ?_ ?_ ?_ ?_ ?_ ?_ ?_ ?_
  · intro other
    split <;> rfl
  · intro other listed
    obtain ⟨visibleAt', same⟩ := rows other
    rw [same]
    exact invariant.leased other listed
  · intro lease listed
    obtain ⟨old, listed', rfl⟩ := List.mem_map.mp listed
    have before := lt_of_lt_of_le (invariant.issued old listed') touches.ids
    split <;> exact before
  · intro other listed token' holds
    rcases others other listed with rfl | ⟨apart, unheld⟩
    · rw [if_pos held] at holds ⊢
      have same : Lease.isOf ⟨other.id, token', other.visibleAt, false⟩ holder = true :=
        Lease.isOf_iff.mpr ⟨id, Option.some.inj (holds.symm.trans token)⟩
      rw [latestLease_map _ keeps, invariant.current other listed token' holds, Option.map_some, if_pos same]
    · rw [if_neg (by rw [unheld]; exact Bool.false_ne_true)] at holds ⊢
      rw [latestLease_map _ keeps, invariant.current other listed token' holds, Option.map_some,
        if_neg (Lease.isOf_apart apart)]
  · intro lease listed open' unexpired
    obtain ⟨old, listed', rfl⟩ := List.mem_map.mp listed
    by_cases own : old.isOf holder = true
    · rw [if_pos own]
      obtain ⟨same, same'⟩ := Lease.isOf_iff.mp own
      refine ⟨task, member, id.trans same.symm, ?_, ?_⟩
      · rw [if_pos held, same']
        exact token
      · rw [if_pos held]
    · rw [if_neg own] at open' unexpired ⊢
      obtain ⟨other, found, id', holds, visible⟩ := invariant.running old listed' open' unexpired
      rcases others other found with rfl | ⟨-, unheld⟩
      · exact absurd (Lease.isOf_iff.mpr ⟨id'.symm.trans id, Option.some.inj (holds.symm.trans token)⟩) own
      · refine ⟨other, found, id', ?_⟩
        rw [if_neg (by rw [unheld]; exact Bool.false_ne_true)]
        exact ⟨holds, visible⟩
  · intro other listed completed
    obtain ⟨visibleAt', same⟩ := rows other
    rw [same]
    exact completed
  · intro other listed
    obtain ⟨visibleAt', same⟩ := rows other
    rw [same]
    exact invariant.counted other listed
  · intro other listed poisoned
    obtain ⟨visibleAt', same⟩ := rows other
    rw [same] at poisoned ⊢
    exact invariant.poisoned other listed poisoned
  · exact fun taskId beyond => invariant.unknown taskId (le_trans touches.ids beyond)

end Holding

/-- A pending task is added that was never delivered. -/
theorem LeaseInvariant.addTask (invariant : LeaseInvariant poisonThreshold state) {task : Nat → TaskRow}
    (pending : ∀ id, (task id).id = id ∧ (task id).state = .pending ∧ (task id).leaseToken = none ∧
      (task id).reclaimCount = 0) :
    LeaseInvariant poisonThreshold { state with db := state.db.addTask task } := by
  have new := pending state.db.nextId
  have rows {row : TaskRow} (listed : row ∈ (state.db.addTask task).tasks) :
      row ∈ state.db.tasks ∨ row = task state.db.nextId := by
    simpa [Database.addTask] using listed
  have stays {row : TaskRow} (listed : row ∈ state.db.tasks) : row ∈ (state.db.addTask task).tasks :=
    List.mem_append_left _ listed
  constructor
  · change ((state.db.tasks ++ [task state.db.nextId]).map TaskRow.id).Nodup
    rw [List.map_append, List.nodup_append]
    refine ⟨invariant.ids, List.nodup_singleton _, fun id before id' added => ?_⟩
    obtain ⟨row, listed, rfl⟩ := List.mem_map.mp before
    rw [List.mem_singleton.mp added, new.1]
    exact Nat.ne_of_lt (invariant.fresh row listed)
  · intro row listed
    rcases rows listed with before | rfl
    · exact Nat.lt_succ_of_lt (invariant.fresh row before)
    · rw [new.1]
      exact Nat.lt_succ_self _
  · intro row listed
    rcases rows listed with before | rfl
    · exact invariant.leased row before
    · rw [new.2.1, new.2.2.1]
      exact ⟨nofun, nofun⟩
  · exact fun lease listed => Nat.lt_succ_of_lt (invariant.issued lease listed)
  · intro row listed token holds
    rcases rows listed with before | rfl
    · exact invariant.current row before token holds
    · rw [new.2.2.1] at holds
      cases holds
  · intro lease listed open' before
    obtain ⟨row, found, rest⟩ := invariant.running lease listed open' before
    exact ⟨row, stays found, rest⟩
  · intro taskId listed
    obtain ⟨row, found, rest⟩ := invariant.acked taskId listed
    exact ⟨row, stays found, rest⟩
  · exact invariant.ackedOnce
  · intro row listed
    rcases rows listed with before | rfl
    · exact invariant.counted row before
    · rw [new.2.2.2, new.1]
      exact (invariant.unknown _ le_rfl).symm
  · intro row listed poisoned
    rcases rows listed with before | rfl
    · exact invariant.poisoned row before poisoned
    · rw [new.2.2.2] at poisoned
      exact absurd (lt_of_lt_of_le poisonThreshold.positive poisoned) (lt_irrefl 0)
  · exact fun taskId beyond => invariant.unknown taskId (le_trans (Nat.le_succ _) beyond)

/-- What the closing of runs does to the tasks, one change at a time. -/
inductive QueueSettling (db : Database) : Database → Prop
  | withdrawn (runId : RunId) : QueueSettling db (db.withdrawTasks runId)
  | added (namespaceId : Nat) (runId : RunId) (queueName : String) (payload : TaskPayload) (visibleAt : Int) :
      QueueSettling db (db.addTask (newTask namespaceId runId queueName payload visibleAt))
  | elsewhere {db' : Database} (tasks : db'.tasks = db.tasks) (ids : db.nextId ≤ db'.nextId) : QueueSettling db db'

/-- What a closing run does to a task. -/
def TaskRow.withdrawn (runId : RunId) (task : TaskRow) : TaskRow :=
  if task.runId = runId ∧ task.state = .pending then { task with state := .completed } else task

theorem LeaseInvariant.settling (invariant : LeaseInvariant poisonThreshold state) {db' : Database}
    (step : QueueSettling state.db db') : LeaseInvariant poisonThreshold { state with db := db' } := by
  cases step with
  | withdrawn runId =>
    have held (task : TaskRow) : (task.withdrawn runId).id = task.id ∧
        (task.withdrawn runId).leaseToken = task.leaseToken ∧
        (task.withdrawn runId).visibleAt = task.visibleAt ∧
        (task.withdrawn runId).reclaimCount = task.reclaimCount := by
      unfold TaskRow.withdrawn
      split <;> exact ⟨rfl, rfl, rfl, rfl⟩
    have state' (task : TaskRow) : (task.withdrawn runId).state = task.state ∨
        task.state = .pending ∧ (task.withdrawn runId).state = .completed := by
      unfold TaskRow.withdrawn
      split
      · next withdrawn => exact .inr ⟨withdrawn.2, rfl⟩
      · exact .inl rfl
    refine invariant.mapRows (TaskRow.withdrawn runId) rfl le_rfl (fun task => (held task).1)
      ?_ ?_ ?_ ?_ ?_ ?_ invariant.unknown
    · intro task listed
      have leased := invariant.leased task listed
      rw [(held task).2.1]
      rcases state' task with same | ⟨pending, completed⟩
      · rw [same]
        exact leased
      · rw [pending] at leased
        rw [completed]
        exact ⟨nofun, fun holds => nomatch leased.mpr holds⟩
    · intro task listed token holds
      exact ⟨(held task).2.1 ▸ holds, (held task).2.2.1⟩
    · intro task listed token holds _
      exact ⟨(held task).2.1.trans holds, (held task).2.2.1⟩
    · intro task listed completed
      rcases state' task with same | ⟨-, completed'⟩
      · exact same.trans completed
      · exact completed'
    · intro task listed
      exact (held task).2.2.2.trans (invariant.counted task listed)
    · intro task listed poisoned
      rw [(held task).2.2.2] at poisoned
      have parked := invariant.poisoned task listed poisoned
      rcases state' task with same | ⟨pending, -⟩
      · exact same.trans parked
      · rw [pending] at parked
        cases parked
  | added namespaceId runId queueName payload visibleAt => exact invariant.addTask fun id => ⟨rfl, rfl, rfl, rfl⟩
  | elsewhere tasks ids =>
    refine invariant.mapRows id (tasks.trans (List.map_id _).symm) ids (fun _ => rfl)
      invariant.leased (fun _ _ _ holds => ⟨holds, rfl⟩) (fun _ _ _ holds _ => ⟨holds, rfl⟩)
      (fun _ _ => id) invariant.counted invariant.poisoned ?_
    exact fun taskId beyond => invariant.unknown taskId (le_trans ids beyond)

theorem LeaseInvariant.settles (invariant : LeaseInvariant poisonThreshold state) {db' : Database}
    (steps : ReflTransGen QueueSettling state.db db') : LeaseInvariant poisonThreshold { state with db := db' } := by
  induction steps with
  | refl => exact invariant
  | tail _ step ih => exact ih.settling step

/-- Later deliveries, one of them of this task. -/
theorem latestLease_append_new {leases more : List Lease} {lease : Lease} (distinct : (more.map Lease.taskId).Nodup)
    (listed : lease ∈ more) : latestLease (leases ++ more) lease.taskId = some lease := by
  have named : lease ∈ more.filter fun other => other.taskId == lease.taskId :=
    List.mem_filter.mpr ⟨listed, beq_self_eq_true _⟩
  have last : (more.filter fun other => other.taskId == lease.taskId).getLast? = some lease := by
    rw [List.getLast?_eq_some_getLast (List.ne_nil_of_mem named)]
    have member := List.mem_filter.mp (List.getLast_mem (List.ne_nil_of_mem named))
    exact congrArg some (List.inj_on_of_nodup_map distinct member.1 listed (beq_iff_eq.mp member.2))
  rw [latestLease, List.filter_append, List.getLast?_append, last]
  rfl

section Takeovers

variable {db db' : Database} {change : TaskRow → TaskRow} {taskId : Nat}

/-- The token of a task after its row was changed in place. -/
theorem heldToken_map (ids : (db.tasks.map TaskRow.id).Nodup) (tasks : db'.tasks = db.tasks.map change)
    (named : ∀ task, (change task).id = task.id) {task : TaskRow} (member : task ∈ db.tasks) :
    db'.heldToken task.id = (change task).leaseToken := by
  have same : db'.tasks.map TaskRow.id = db.tasks.map TaskRow.id := by
    rw [tasks, List.map_map]
    exact List.map_congr_left fun task _ => named task
  have listed : change task ∈ db'.tasks := by
    rw [tasks]
    exact List.mem_map_of_mem member
  rw [← named task]
  exact heldToken_eq (same ▸ ids) listed

theorem lostAfter_eq (ids : (db.tasks.map TaskRow.id).Nodup) (tasks : db'.tasks = db.tasks.map change)
    (named : ∀ task, (change task).id = task.id) (lost : Nat → Nat) {task : TaskRow} (member : task ∈ db.tasks) :
    db.lostAfter db' lost task.id = lost task.id +
      if task.leaseToken.isSome && (change task).leaseToken != task.leaseToken then 1 else 0 := by
  rw [Database.lostAfter, heldToken_map ids tasks named member, heldToken_eq ids member]

end Takeovers

/-- The janitor takes back leases that are over. -/
theorem LeaseInvariant.reclaim (invariant : LeaseInvariant poisonThreshold state) (locked : Nat → Bool) :
    LeaseInvariant poisonThreshold { state with
      db := (state.db.reclaimOrphanedLeases state.clock poisonThreshold locked).2
      lost := state.db.lostAfter (state.db.reclaimOrphanedLeases state.clock poisonThreshold locked).2 state.lost } := by
  let change (task : TaskRow) : TaskRow :=
    if task.isOrphaned state.clock && !locked task.id then task.reclaimed state.clock poisonThreshold else task
  have named (task : TaskRow) : (change task).id = task.id := by
    dsimp only [change]
    split <;> rfl
  have taken (task : TaskRow) : change task = task ∨ task.state = .leased ∧ task.visibleAt ≤ state.clock.ms ∧
      change task = task.reclaimed state.clock poisonThreshold := by
    dsimp only [change]
    split
    · next elapsed =>
        simp only [TaskRow.isOrphaned, Bool.and_eq_true, beq_iff_eq, decide_eq_true_eq] at elapsed
        exact .inr ⟨elapsed.1.1, elapsed.1.2, rfl⟩
    · exact .inl rfl
  refine invariant.mapRows change rfl le_rfl named ?_ ?_ ?_ ?_ ?_ ?_ ?_
  · intro task listed
    rcases taken task with same | ⟨leased, elapsed, same⟩
    · rw [same]
      exact invariant.leased task listed
    · rw [same, TaskRow.reclaimed]
      dsimp only
      split <;> exact ⟨nofun, nofun⟩
  · intro task listed token holds
    rcases taken task with same | ⟨leased, elapsed, same⟩
    · rw [same] at holds ⊢
      exact ⟨holds, rfl⟩
    · rw [same] at holds
      cases holds
  · intro task listed token holds unexpired
    rcases taken task with same | ⟨leased, elapsed, same⟩
    · rw [same]
      exact ⟨holds, rfl⟩
    · exact absurd unexpired (not_lt.mpr elapsed)
  · intro task listed completed
    rcases taken task with same | ⟨leased, elapsed, same⟩
    · rw [same]
      exact completed
    · rw [completed] at leased
      cases leased
  · intro task listed
    rw [lostAfter_eq invariant.ids rfl named state.lost listed, ← invariant.counted task listed]
    rcases taken task with same | ⟨leased, elapsed, same⟩
    · simp [same]
    · have holds := (invariant.leased task listed).mp leased
      obtain ⟨token, holds⟩ := Option.isSome_iff_exists.mp holds
      simp [same, TaskRow.reclaimed, holds]
  · intro task listed poisoned
    rcases taken task with same | ⟨leased, elapsed, same⟩
    · rw [same] at poisoned ⊢
      exact invariant.poisoned task listed poisoned
    · rw [same] at poisoned ⊢
      exact if_pos poisoned
  · intro taskId beyond
    have absent : state.db.heldToken taskId = none :=
      heldToken_none fun task listed => Nat.ne_of_lt (lt_of_lt_of_le (invariant.fresh task listed) beyond)
    simp [Database.lostAfter, absent, invariant.unknown taskId beyond]

/-- An operator releases a task that was parked. -/
theorem LeaseInvariant.release (invariant : LeaseInvariant poisonThreshold state) {taskId : Nat} {task : TaskRow}
    (member : task ∈ state.db.tasks) (id : task.id = taskId) (parked : task.state = .quarantined) :
    LeaseInvariant poisonThreshold { state with
      db := (state.db.releaseQuarantined state.clock taskId).2
      lost := fun other => if other = taskId then 0 else state.lost other } := by
  let change (task : TaskRow) : TaskRow :=
    if task.id == taskId && task.state == .quarantined then task.released state.clock else task
  have named (task : TaskRow) : (change task).id = task.id := by
    dsimp only [change]
    split <;> rfl
  have others {other : TaskRow} (listed : other ∈ state.db.tasks) :
      other.id ≠ taskId ∧ change other = other ∨ other = task ∧ change other = task.released state.clock := by
    by_cases same : other.id = taskId
    · have one := mem_ids invariant.ids listed member (same.trans id.symm)
      refine .inr ⟨one, ?_⟩
      rw [one]
      exact if_pos (by simp [id, parked])
    · exact .inl ⟨same, if_neg (by simp [same])⟩
  have unheld : task.leaseToken = none := by
    have leased := invariant.leased task member
    rw [parked] at leased
    cases holds : task.leaseToken with
    | none => rfl
    | some token => exact nomatch leased.mpr (by rw [holds]; rfl)
  refine invariant.mapRows change rfl le_rfl named ?_ ?_ ?_ ?_ ?_ ?_ ?_
  · intro other listed
    rcases others listed with ⟨-, same⟩ | ⟨rfl, same⟩
    · rw [same]
      exact invariant.leased other listed
    · rw [same]
      exact ⟨nofun, fun holds => absurd (unheld ▸ holds : (none : Option Nat).isSome = true) nofun⟩
  · intro other listed token holds
    rcases others listed with ⟨-, same⟩ | ⟨rfl, same⟩
    · rw [same] at holds ⊢
      exact ⟨holds, rfl⟩
    · rw [same] at holds
      exact nomatch unheld.symm.trans holds
  · intro other listed token holds _
    rcases others listed with ⟨-, same⟩ | ⟨rfl, same⟩
    · rw [same]
      exact ⟨holds, rfl⟩
    · exact nomatch unheld.symm.trans holds
  · intro other listed completed
    rcases others listed with ⟨-, same⟩ | ⟨rfl, same⟩
    · rw [same]
      exact completed
    · rw [parked] at completed
      cases completed
  · intro other listed
    rcases others listed with ⟨apart, same⟩ | ⟨rfl, same⟩
    · rw [same, if_neg apart]
      exact invariant.counted other listed
    · rw [same, if_pos id]
      rfl
  · intro other listed poisoned
    rcases others listed with ⟨-, same⟩ | ⟨rfl, same⟩
    · rw [same] at poisoned ⊢
      exact invariant.poisoned other listed poisoned
    · rw [same] at poisoned
      exact absurd (lt_of_lt_of_le poisonThreshold.positive poisoned) (lt_irrefl 0)
  · intro other beyond
    split
    · rfl
    · exact invariant.unknown other beyond

section Dequeue

variable {db : Database} {options : DequeueOptions}

theorem nextTasks_mem {task : TaskRow} (listed : task ∈ db.nextTasks now options) : task ∈ db.tasks ∧ task.isDue now options = true := by
  have sorted := List.mem_of_mem_take listed
  simpa using (List.mem_insertionSort _).mp sorted

theorem nextTasks_distinct (ids : (db.tasks.map TaskRow.id).Nodup) : ((db.nextTasks now options).map TaskRow.id).Nodup := by
  have sorted : (((db.tasks.filter (·.isDue now options)).insertionSort fun one two =>
      one.goesBefore two).map TaskRow.id).Nodup := by
    refine ((List.perm_insertionSort _ _).map TaskRow.id).nodup_iff.mpr ?_
    exact ids.sublist (List.filter_sublist.map _)
  exact sorted.sublist ((List.take_sublist _ _).map _)

theorem TaskRow.isDue_open {task : TaskRow} (due : task.isDue now options = true) :
    (task.state = .pending ∨ task.state = .leased) ∧ task.visibleAt ≤ now.ms := by
  simp only [TaskRow.isDue, Bool.and_eq_true, Bool.or_eq_true, beq_iff_eq, decide_eq_true_eq] at due
  exact ⟨due.1.1.1.2, due.1.1.2⟩

/-- A row that `dequeue` does not take, or that it parks or delivers. -/
theorem TaskRow.taken_cases {firstToken visibilityTimeoutMs : Nat} {next : List TaskRow} (task : TaskRow) :
    (∀ other ∈ next, other.id ≠ task.id) ∧ task.taken now poisonThreshold visibilityTimeoutMs firstToken next = task ∨
      ∃ position, ∃ inside : position < next.length, (next.get ⟨position, inside⟩).id = task.id ∧ (task.isPoisoned poisonThreshold = true ∧
            task.taken now poisonThreshold visibilityTimeoutMs firstToken next = task.parked ∨ task.isPoisoned poisonThreshold = false ∧
            task.taken now poisonThreshold visibilityTimeoutMs firstToken next =
              task.delivered now visibilityTimeoutMs (firstToken + position)) := by
  unfold TaskRow.taken
  cases found : next.findIdx? fun other => other.id == task.id with
  | none =>
    left
    refine ⟨fun other listed same => ?_, rfl⟩
    have apart := List.findIdx?_eq_none_iff.mp found other listed
    simp [same] at apart
  | some position =>
    right
    obtain ⟨inside, same, -⟩ := List.findIdx?_eq_some_iff_getElem.mp found
    refine ⟨position, inside, by simpa using same, ?_⟩
    cases poisoned : task.isPoisoned poisonThreshold with
    | true => exact .inl ⟨rfl, if_pos rfl⟩
    | false => exact .inr ⟨rfl, if_neg Bool.false_ne_true⟩

end Dequeue

theorem TaskRow.taken_id {firstToken visibilityTimeoutMs : Nat} {next : List TaskRow} (task : TaskRow) :
    (task.taken now poisonThreshold visibilityTimeoutMs firstToken next).id = task.id := by
  unfold TaskRow.taken
  split
  · rfl
  · split <;> rfl

/-- The row of a delivered task. -/
theorem mem_leasesOf {db : Database} {options : DequeueOptions} {lease : Lease} :
    lease ∈ leasesOf (db.dequeue now poisonThreshold options).1 ↔
      ∃ task ∈ db.nextTasks now options, task.id = lease.taskId ∧ lease.released = false ∧
        (task.taken now poisonThreshold options.visibilityTimeoutMs db.nextId (db.nextTasks now options)).leaseToken = some lease.token ∧
        (task.taken now poisonThreshold options.visibilityTimeoutMs db.nextId (db.nextTasks now options)).visibleAt = lease.expiresAt := by
  simp only [leasesOf, Database.dequeue, List.mem_map, List.mem_filterMap, TaskRow.toLeasedTask, Option.map_eq_some_iff]
  constructor
  · rintro ⟨leased, ⟨task, listed, token, holds, rfl⟩, rfl⟩
    exact ⟨task, listed, (TaskRow.taken_id task).symm, rfl, holds, rfl⟩
  · rintro ⟨task, listed, id, open', holds, visible⟩
    refine ⟨_, ⟨task, listed, lease.token, holds, rfl⟩, ?_⟩
    obtain ⟨taskId, token, expiresAt, released⟩ := lease
    simp only at id open' visible
    simp only [TaskRow.taken_id, id, open', visible]

/-- Each task is delivered at most once by one `dequeue`. -/
theorem leasesOf_distinct {db : Database} {options : DequeueOptions} (ids : (db.tasks.map TaskRow.id).Nodup) :
    ((leasesOf (db.dequeue now poisonThreshold options).1).map Lease.taskId).Nodup := by
  have sublist (next rows : List TaskRow) : ((leasesOf (rows.filterMap fun task => (TaskRow.taken now poisonThreshold
      options.visibilityTimeoutMs db.nextId next task).toLeasedTask)).map Lease.taskId).Sublist
      (rows.map TaskRow.id) := by
    induction rows with
    | nil => exact .slnil
    | cons row rest ih =>
      rw [List.filterMap_cons, List.map_cons]
      cases delivered : (TaskRow.taken now poisonThreshold options.visibilityTimeoutMs db.nextId next
          row).toLeasedTask with
      | none => exact ih.cons _
      | some leased =>
        have id : leased.id = row.id := by
          rw [TaskRow.toLeasedTask, Option.map_eq_some_iff] at delivered
          obtain ⟨token, -, rfl⟩ := delivered
          exact TaskRow.taken_id row
        change List.Sublist (leased.id :: _) _
        rw [id]
        exact ih.cons_cons _
  exact (nextTasks_distinct ids).sublist (sublist _ _)

/-- Due tasks are delivered. -/
theorem LeaseInvariant.dequeue (invariant : LeaseInvariant poisonThreshold state) (options : DequeueOptions) :
    LeaseInvariant poisonThreshold { state with
      db := (state.db.dequeue state.clock poisonThreshold options).2
      leases := state.leases ++ leasesOf (state.db.dequeue state.clock poisonThreshold options).1
      lost := state.db.lostAfter (state.db.dequeue state.clock poisonThreshold options).2 state.lost } := by
  let next := state.db.nextTasks state.clock options
  let change := TaskRow.taken state.clock poisonThreshold options.visibilityTimeoutMs state.db.nextId next
  have distinct : ((leasesOf (state.db.dequeue state.clock poisonThreshold options).1).map Lease.taskId).Nodup :=
    leasesOf_distinct invariant.ids
  have cases {task : TaskRow} (listed : task ∈ state.db.tasks) :
      (∀ other ∈ next, other.id ≠ task.id) ∧ change task = task ∨
        task ∈ next ∧ (task.state = .pending ∨ task.state = .leased) ∧ task.visibleAt ≤ state.clock.ms ∧
          (task.isPoisoned poisonThreshold = true ∧ change task = task.parked ∨
            task.isPoisoned poisonThreshold = false ∧ ∃ position < next.length,
              change task = task.delivered state.clock options.visibilityTimeoutMs (state.db.nextId + position)) := by
    rcases TaskRow.taken_cases task with apart | ⟨position, inside, id, rest⟩
    · exact .inl apart
    · have member : next.get ⟨position, inside⟩ ∈ next := List.get_mem _ _
      have due := nextTasks_mem member
      have one := mem_ids invariant.ids due.1 listed id
      rw [one] at member due
      have open' := TaskRow.isDue_open due.2
      refine .inr ⟨member, open'.1, open'.2, ?_⟩
      rcases rest with parked | ⟨healthy, same⟩
      · exact .inl parked
      · exact .inr ⟨healthy, position, inside, same⟩
  have before {task : TaskRow} (listed : task ∈ state.db.tasks) {token : Nat} (holds : task.leaseToken = some token) :
      token < state.db.nextId := by
    have latest := invariant.current task listed token holds
    exact invariant.issued _ (latestLease_mem latest).1
  refine invariant.mapAll change rfl (Nat.le_add_right _ _) TaskRow.taken_id ?_ ?_ ?_ ?_ ?_ ?_ ?_ ?_
  · intro task listed
    rcases cases listed with ⟨-, same⟩ | ⟨-, -, -, ⟨-, same⟩ | ⟨-, position, -, same⟩⟩
    · rw [same]
      exact invariant.leased task listed
    · rw [same]
      exact ⟨nofun, nofun⟩
    · rw [same]
      exact ⟨fun _ => rfl, fun _ => rfl⟩
  · intro lease listed
    rcases List.mem_append.mp listed with old | new
    · exact lt_of_lt_of_le (invariant.issued lease old) (Nat.le_add_right _ _)
    · obtain ⟨task, due, -, -, holds, -⟩ := mem_leasesOf.mp new
      have listed' := (nextTasks_mem due).1
      rcases cases listed' with ⟨apart, -⟩ | ⟨-, -, -, ⟨-, same⟩ | ⟨-, position, inside, same⟩⟩
      · exact absurd rfl (apart task due)
      · exact nomatch (congrArg TaskRow.leaseToken same).symm.trans holds
      · have token := Option.some.inj ((congrArg TaskRow.leaseToken same).symm.trans holds)
        rw [← token]
        exact Nat.add_lt_add_left inside _
  · intro task listed token holds
    rcases cases listed with ⟨apart, same⟩ | ⟨due, -, -, ⟨-, same⟩ | ⟨-, position, -, same⟩⟩
    · rw [latestLease_append_other, same]
      · exact invariant.current task listed token (same ▸ holds)
      · intro lease new
        obtain ⟨other, due, id, -⟩ := mem_leasesOf.mp new
        exact id ▸ apart other due
    · exact nomatch (congrArg TaskRow.leaseToken same).symm.trans holds
    · have new : ⟨task.id, token, (change task).visibleAt, false⟩ ∈
          leasesOf (state.db.dequeue state.clock poisonThreshold options).1 :=
        mem_leasesOf.mpr ⟨task, due, rfl, rfl, holds, rfl⟩
      exact latestLease_append_new distinct new
  · intro lease listed open' unexpired
    rcases List.mem_append.mp listed with old | new
    · obtain ⟨task, found, id, token, visible⟩ := invariant.running lease old open' unexpired
      rcases cases found with ⟨-, same⟩ | ⟨-, -, elapsed, -⟩
      · exact ⟨task, found, id, by rw [same]; exact token, by rw [same]; exact visible⟩
      · exact absurd unexpired (not_lt.mpr (visible ▸ elapsed))
    · obtain ⟨task, due, id, -, holds, visible⟩ := mem_leasesOf.mp new
      exact ⟨task, (nextTasks_mem due).1, id, holds, visible⟩
  · intro task listed completed
    rcases cases listed with ⟨-, same⟩ | ⟨-, pending | leased, -⟩
    · rw [same]
      exact completed
    · cases completed.symm.trans pending
    · cases completed.symm.trans leased
  · intro task listed
    rw [lostAfter_eq invariant.ids rfl TaskRow.taken_id state.lost listed, ← invariant.counted task listed]
    change (change task).reclaimCount = task.reclaimCount +
      if task.leaseToken.isSome && (change task).leaseToken != task.leaseToken then 1 else 0
    have leased := invariant.leased task listed
    rcases cases listed with ⟨-, same⟩ | ⟨-, -, -, ⟨poisoned, same⟩ | ⟨-, position, -, same⟩⟩
    · simp [same]
    · simp only [TaskRow.isPoisoned, Bool.and_eq_true, beq_iff_eq] at poisoned
      obtain ⟨token, holds⟩ := Option.isSome_iff_exists.mp (leased.mp poisoned.1)
      simp [same, TaskRow.parked, holds]
    · cases holds : task.leaseToken with
      | none =>
        have unleased : task.state ≠ .leased := by
          intro holds'
          rw [leased, holds] at holds'
          cases holds'
        simp [same, TaskRow.delivered, unleased]
      | some token =>
        have held : task.state = .leased := leased.mpr (by rw [holds]; rfl)
        have fresh : state.db.nextId + position ≠ token :=
          Nat.ne_of_gt (lt_of_lt_of_le (before listed holds) (Nat.le_add_right _ _))
        simp [same, TaskRow.delivered, held, fresh]
  · intro task listed poisoned
    rcases cases listed with ⟨-, same⟩ | ⟨-, open', -, ⟨-, same⟩ | ⟨healthy, position, -, same⟩⟩
    · rw [same] at poisoned ⊢
      exact invariant.poisoned task listed poisoned
    · rw [same]
      rfl
    · rw [same] at poisoned
      simp only [TaskRow.delivered] at poisoned
      rcases open' with pending | leased
      · have unleased : task.state ≠ .leased := by
          rw [pending]
          nofun
        rw [if_neg unleased] at poisoned
        cases pending.symm.trans (invariant.poisoned task listed poisoned)
      · rw [if_pos leased] at poisoned
        simp [TaskRow.isPoisoned, leased, poisoned] at healthy
  · intro taskId beyond
    have within : state.db.nextId ≤ taskId := le_trans (Nat.le_add_right _ _) beyond
    have absent : state.db.heldToken taskId = none :=
      heldToken_none fun task listed => Nat.ne_of_lt (lt_of_lt_of_le (invariant.fresh task listed) within)
    simp [Database.lostAfter, absent, invariant.unknown taskId within]

end Preservation

section Transactions

variable {now : Instant}

/-- The tasks are as they were. -/
def SameTasks (db db' : Database) : Prop := db'.tasks = db.tasks ∧ db.nextId ≤ db'.nextId

theorem SameTasks.refl (db : Database) : SameTasks db db := ⟨rfl, le_rfl⟩

theorem SameTasks.trans (one two three : Database) (first : SameTasks one two) (second : SameTasks two three) : SameTasks one three :=
  ⟨second.1.trans first.1, first.2.trans second.2⟩

theorem appendNext_sameTasks (runId : RunId) (events : List WorkflowEvent) : Keeps SameTasks (appendNext runId events now) := by
  refine .bind SameTasks.trans (.select SameTasks.refl _) fun currentSeq => ?_
  refine .bind SameTasks.trans (.select SameTasks.refl _) fun currentSeq' => ?_
  split
  · exact .raise _
  · split
    · exact .pure SameTasks.refl _
    · refine .bind SameTasks.trans (.statement fun db answer db' inserted => ?_) fun _ => .pure SameTasks.refl _
      split at inserted
      · cases inserted
        exact .refl _
      · cases inserted

theorem recordStepResultOn_sameTasks (options : RecorderOptions) (input : RecordStepResultInput) :
    Keeps SameTasks (recordStepResultOn options input) := by
  refine .bind SameTasks.trans (.select SameTasks.refl _) fun row => ?_
  split
  · refine .bind SameTasks.trans (.select SameTasks.refl _) fun found => ?_
    cases found with
    | some first => exact .pure SameTasks.refl _
    | none =>
      refine .bind SameTasks.trans (.statement fun db answer db' inserted => ?_) fun _ => ?_
      · split at inserted
        · cases inserted
          exact .refl _
        · cases inserted
      · exact .bind SameTasks.trans (appendNext_sameTasks _ _).discard fun _ => .pure SameTasks.refl _
  · exact .pure SameTasks.refl _

theorem insertDeadLetter_sameTasks (input : AddDeadLetterInput) : Keeps SameTasks (insertDeadLetter input now) := by
  refine .statement fun db answer db' inserted => ?_
  split at inserted
  · cases inserted
    exact .refl _
  · split at inserted
    · cases inserted
      exact ⟨rfl, Nat.le_succ _⟩
    · cases inserted

abbrev QueueSettled : Database → Database → Prop := ReflTransGen QueueSettling

theorem QueueSettled.trans (one two three : Database) (first : QueueSettled one two) (second : QueueSettled two three) :
    QueueSettled one three := ReflTransGen.trans first second

theorem QueueSettled.same {A : Type} {work : Tx A} (keeps : Keeps SameTasks work) : Keeps QueueSettled work :=
  fun session answer session' ran =>
    have same := keeps session answer session' ran
    .single (.elsewhere same.1 same.2)

theorem insertWorkflowTask_settled (namespaceId : Nat) (runId : RunId) (queueName : String) (reason : WakeReason) :
    Keeps QueueSettled (insertWorkflowTask namespaceId runId queueName reason now) :=
  .write fun _ => .single (.added namespaceId runId queueName (.workflowTask reason) now.ms)

theorem refreshProjection_sameTasks (runId : RunId) : Keeps SameTasks (refreshProjection runId) := by
  refine .bind SameTasks.trans (.select SameTasks.refl _) fun found => ?_
  cases found with
  | none => exact .raise _
  | some row =>
    refine .bind SameTasks.trans (.select SameTasks.refl _) fun events => ?_
    refine .bind SameTasks.trans ?_ fun next => ?_
    · unfold liftExcept
      split
      · exact .pure SameTasks.refl _
      · exact .raise _
    · exact .bind SameTasks.trans (.write fun db => ⟨rfl, le_rfl⟩) fun _ => .pure SameTasks.refl _

theorem notifyParent_settled (runId : RunId) (projection : RunProjection) : Keeps QueueSettled (notifyParent runId projection now) := by
  have reflexive (db : Database) : QueueSettled db db := .refl
  unfold notifyParent
  split
  · exact .pure reflexive _
  · refine .bind QueueSettled.trans (.select reflexive _) fun link => ?_
    cases link with
    | none => exact .pure reflexive _
    | some link =>
      refine .bind QueueSettled.trans (.select reflexive _) fun found => ?_
      cases found with
      | none => exact .pure reflexive _
      | some parent =>
        dsimp only
        split
        · exact .pure reflexive _
        · refine .bind QueueSettled.trans (.same (appendNext_sameTasks _ _).discard) fun _ => ?_
          refine .bind QueueSettled.trans (.select reflexive _) fun found => ?_
          cases found with
          | none => exact .raise _
          | some row => exact insertWorkflowTask_settled _ _ _ _

theorem applyParentClosePolicy_settled {close : RunId → Tx Unit} (closes : ∀ runId, Keeps QueueSettled (close runId))
    (child : RunRow) : Keeps QueueSettled (applyParentClosePolicy close child now) := by
  have reflexive (db : Database) : QueueSettled db db := .refl
  unfold applyParentClosePolicy
  split
  · refine .bind QueueSettled.trans (.select reflexive _) fun found => ?_
    cases found with
    | none => exact .raise _
    | some row =>
      refine .bind QueueSettled.trans (.select reflexive _) fun history => ?_
      split
      · exact .pure reflexive _
      · refine .bind QueueSettled.trans (.same (appendNext_sameTasks _ _).discard) fun _ => ?_
        exact insertWorkflowTask_settled _ _ _ _
  · exact .bind QueueSettled.trans (.same (appendNext_sameTasks _ _).discard) fun _ => closes _
  · exact .pure reflexive _

/-- What a closing does to the tasks, by induction on how deep the children may go. -/
theorem closeRunIfTerminal_settled (depth : Nat) (runId : RunId) : Keeps QueueSettled (closeRunIfTerminal now depth runId) := by
  have reflexive (db : Database) : QueueSettled db db := .refl
  induction depth generalizing runId with
  | zero => exact .raise _
  | succ depth ih =>
    refine .bind QueueSettled.trans (.same (refreshProjection_sameTasks runId)) fun projection => ?_
    split
    · refine .bind QueueSettled.trans (.write fun db => .single (.withdrawn runId)) fun _ => ?_
      refine .bind QueueSettled.trans (notifyParent_settled runId projection) fun _ => ?_
      refine .bind QueueSettled.trans (.select reflexive _) fun children => ?_
      exact .forM reflexive QueueSettled.trans fun child _ => applyParentClosePolicy_settled ih child
    · exact .pure reflexive _

theorem closeWith_settled (runId : RunId) (events : List WorkflowEvent) (budget : Option Nat) (db : Database) :
    QueueSettled db (withTransaction (closeWith runId events now) budget db).2 := by
  refine withTransaction_keeps (fun _ => .refl) ?_ budget db
  refine .bind QueueSettled.trans (.same (appendNext_sameTasks _ _).discard) fun _ => ?_
  exact fun session answer session' ran => closeRunIfTerminal_settled _ runId session answer session' ran

end Transactions

section Holders

variable {poisonThreshold : PoisonThreshold} {now : Instant} {db : Database} {holder : TaskLease}

/-- What a successful operation of a holder did. -/
inductive HolderEffect (now : Instant) (db db' : Database) (holder : TaskLease) (op : QueueOp) : Prop
  | letGo (change : TaskRow → TaskRow) (lets : LetsGo change)
      (completes : op.acks = true → ∀ task, (change task).state = .completed)
      (touches : Touches db db' holder (·.isHeldBy holder.taskId holder.leaseToken) change)
      (after : ∀ lease : Lease, lease.afterwards now op = { lease with released := true })
  | extended (matching : TaskRow → Bool) (visibleAt : Int) (unacked : op.acks = false)
      (touches : Touches db db' holder matching fun task => { task with visibleAt := visibleAt })
      (after : ∀ lease : Lease, lease.afterwards now op = { lease with expiresAt := visibleAt })

/-- An update by a lease changes the task of that lease, or nothing. -/
theorem updateTasks_touches {matching : TaskRow → Bool} (change : TaskRow → TaskRow) (ids : (db.tasks.map TaskRow.id).Nodup)
    (held : ∀ task, matching task = true → task.isHeldBy holder.taskId holder.leaseToken = true) :
    ((db.updateTasks matching change).1 == 1) = false ∧ (db.updateTasks matching change).2 = db ∨
      ((db.updateTasks matching change).1 == 1) = true ∧ Touches db (db.updateTasks matching change).2 holder matching change := by
  have named (task : TaskRow) (matches' : matching task = true) : task.id = holder.taskId :=
    (TaskRow.isHeldBy_iff.mp (held task matches')).1
  rcases updateTasks_cases change ids named with unchanged | ⟨one, task, listed, matches', -, -⟩
  · exact .inl unchanged
  · exact .inr ⟨one, ⟨task, listed, matches'⟩, held, rfl, le_rfl⟩

/-- A dead letter is stored with the acknowledgement of its task. -/
theorem addAndAckOn_spec (input : AddDeadLetterInput) (options : RecorderOptions) (result : RecordStepResultInput)
    (ids : (db.tasks.map TaskRow.id).Nodup) :
    Ensures (· = db) (addAndAckOn input holder (discard (recordStepResultOn options result)) now) fun _ db' =>
      Touches db db' holder (·.isHeldBy holder.taskId holder.leaseToken) TaskRow.acked := by
  have within : Ensures (· = db) (discard (recordStepResultOn options result)) fun _ db' => SameTasks db db' := by
    intro session answer session' same ran
    rw [← same]
    exact (recordStepResultOn_sameTasks options result).discard session answer session' ran
  refine .then within fun _ middle same => ?_
  have ids' : (middle.tasks.map TaskRow.id).Nodup := by
    rw [same.1]
    exact ids
  refine .through (fun acked db' => acked = true →
    Touches db db' holder (·.isHeldBy holder.taskId holder.leaseToken) TaskRow.acked) (.statement ?_) fun acked => ?_
  · rintro store acked db' rfl answered
    cases answered
    intro acked
    rcases updateTasks_touches TaskRow.acked ids' (fun _ (held : TaskRow.isHeldBy _ holder.taskId holder.leaseToken =
        true) => held) with ⟨unchanged, -⟩ | ⟨-, touches⟩
    · cases unchanged.symm.trans acked
    · have tasks := touches.tasks
      rw [same.1] at tasks
      exact ⟨same.1 ▸ touches.one, touches.held, tasks, same.2⟩
  · split
    · next acked =>
        intro session answer session' touches ran
        have kept := insertDeadLetter_sameTasks input session answer session' ran
        have touches' := touches acked
        exact ⟨touches'.one, touches'.held, kept.1.trans touches'.tasks, touches'.ids.trans kept.2⟩
    · exact .raise

/-- What the operations of a holder do. -/
theorem holder_cases (poisonThreshold : PoisonThreshold) (now : Instant) {op : QueueOp} (lease : op.lease = some holder)
    (ids : (db.tasks.map TaskRow.id).Nodup) : op.run poisonThreshold now db = (.changed false, db) ∨
      ∃ db', op.run poisonThreshold now db = (.changed true, db') ∧ HolderEffect now db db' holder op := by
  have letGo (change : TaskRow → TaskRow) (lets : LetsGo change)
      (run : ∀ yes db', db.updateTasks (·.isHeldBy holder.taskId holder.leaseToken) change = (yes, db') →
        op.run poisonThreshold now db = (.changed (yes == 1), db'))
      (completes : op.acks = true → ∀ task, (change task).state = .completed)
      (after : ∀ lease : Lease, lease.afterwards now op = { lease with released := true }) :
      op.run poisonThreshold now db = (.changed false, db) ∨
        ∃ db', op.run poisonThreshold now db = (.changed true, db') ∧ HolderEffect now db db' holder op := by
    let matching (task : TaskRow) : Bool := task.isHeldBy holder.taskId holder.leaseToken
    have ran := run (db.updateTasks matching change).1 (db.updateTasks matching change).2 rfl
    rcases updateTasks_touches change ids (fun task (held : matching task = true) => held) with ⟨no, same⟩ | ⟨yes, touches⟩
    · rw [no, same] at ran
      exact .inl ran
    · rw [yes] at ran
      exact .inr ⟨_, ran, .letGo change lets completes touches after⟩
  cases op with
  | enqueue | dequeue | reclaimOrphanedLeases | releaseQuarantined | closeRun => cases lease
  | ack taskId leaseToken =>
    cases lease
    refine letGo TaskRow.acked (fun _ => ⟨rfl, rfl, nofun, rfl⟩) ?_ (fun _ _ => rfl) fun _ => rfl
    rintro yes db' updated
    simp only [QueueOp.run, Database.ack, updated]
  | nack taskId leaseToken delayMs =>
    cases lease
    refine letGo (·.nacked now delayMs) (fun _ => ⟨rfl, rfl, nofun, rfl⟩) ?_ nofun fun _ => rfl
    rintro yes db' updated
    simp only [QueueOp.run, Database.nack, updated]
  | quarantine taskId leaseToken =>
    cases lease
    refine letGo TaskRow.quarantined (fun _ => ⟨rfl, rfl, nofun, rfl⟩) ?_ nofun fun _ => rfl
    rintro yes db' updated
    simp only [QueueOp.run, Database.quarantine, updated]
  | extend taskId leaseToken visibilityTimeoutMs =>
    cases lease
    have held (task : TaskRow) (matches' : (task.isHeldBy taskId leaseToken && decide (now.ms < task.visibleAt)) =
        true) : task.isHeldBy taskId leaseToken = true := by
      simp only [Bool.and_eq_true] at matches'
      exact matches'.1
    let matching (task : TaskRow) : Bool := task.isHeldBy taskId leaseToken && decide (now.ms < task.visibleAt)
    let change (task : TaskRow) : TaskRow := task.extended now visibilityTimeoutMs
    have ran : QueueOp.run poisonThreshold now db (.extend taskId leaseToken visibilityTimeoutMs) =
      (.changed ((db.updateTasks matching change).1 == 1), (db.updateTasks matching change).2) := rfl
    have held' : ∀ task, matching task = true → task.isHeldBy (TaskLease.mk taskId leaseToken).taskId
      (TaskLease.mk taskId leaseToken).leaseToken = true := held
    rcases updateTasks_touches change ids held' with ⟨no, same⟩ | ⟨yes, touches⟩
    · rw [no] at ran
      exact .inl (ran.trans (congrArg _ same))
    · rw [yes] at ran
      exact .inr ⟨_, ran, .extended _ _ rfl touches fun _ => rfl⟩
  | addAndAck input held options result budget =>
    cases lease
    let work := addAndAckOn input holder (discard (recordStepResultOn options result)) now
    have ran : QueueOp.run poisonThreshold now db (.addAndAck input holder options result budget) =
      (.changed (answersOk (withTransaction work budget db).1), (withTransaction work budget db).2) := rfl
    have added : Ensures (· = db) work _ := addAndAckOn_spec input options result ids
    rcases withTransaction_cases added budget db rfl with ⟨fault, failed⟩ | ⟨answer, db', done, touches⟩
    · rw [failed] at ran
      exact .inl ran
    · rw [done] at ran
      refine .inr ⟨db', ran, ?_⟩
      exact .letGo TaskRow.acked (fun _ => ⟨rfl, rfl, nofun, rfl⟩) (fun _ _ => rfl) touches fun _ => rfl

end Holders

section Runs

variable {poisonThreshold : PoisonThreshold} {state : QueueState} {now : Instant}

/-- What a holder's operation does to the state. -/
theorem step_holder (poisonThreshold : PoisonThreshold) (now : Instant) {op : QueueOp} {holder : TaskLease} (lease : op.lease = some holder)
    (ids : (state.db.tasks.map TaskRow.id).Nodup) :
    state.step poisonThreshold now op = { state with clock := now } ∨
      ∃ db', HolderEffect now state.db db' holder op ∧ state.step poisonThreshold now op = { state with
        db := db'
        clock := now
        leases := state.leases.map fun lease => if lease.isOf holder then lease.afterwards now op else lease
        acks := if op.acks then state.acks ++ [holder.taskId] else state.acks } := by
  have unlost (answer : QueueAnswer) (db' : Database) : state.lostBy op answer db' = state.lost := by
    cases op with
    | dequeue | reclaimOrphanedLeases | releaseQuarantined => cases lease
    | enqueue | ack | nack | quarantine | extend | addAndAck | closeRun => rfl
  rcases holder_cases poisonThreshold now lease ids with ran | ⟨db', ran, effect⟩
  · left
    simp only [QueueState.step, ran, unlost]
  · refine .inr ⟨db', effect, ?_⟩
    simp only [QueueState.step, ran, unlost, lease]

/-- One operation keeps the invariant. -/
theorem LeaseInvariant.step (invariant : LeaseInvariant poisonThreshold state) (op : QueueOp)
    (later : state.clock.ms ≤ now.ms) : LeaseInvariant poisonThreshold (state.step poisonThreshold now op) := by
  have ticked := invariant.tick later
  cases lease : op.lease with
  | some holder =>
    rcases step_holder poisonThreshold now lease invariant.ids with same | ⟨db', effect, same⟩
    · rw [same]
      exact ticked
    · rw [same]
      cases effect with
      | letGo change lets completes touches after =>
        have released := ticked.letGo lets touches
        simp only [after]
        split
        · next acks =>
            obtain ⟨task, member, held, id, token, leased, -⟩ := touches.only invariant.ids
            have changed : change task ∈ db'.tasks := by
              rw [touches.tasks]
              exact List.mem_map.mpr ⟨task, member, if_pos held⟩
            have named := (lets task).1.trans id
            have unacked : (change task).id ∉ state.acks := by
              intro earlier
              obtain ⟨other, found, id', completed⟩ := invariant.acked _ earlier
              have one := mem_ids invariant.ids found member (id'.trans (lets task).1)
              rw [one, leased] at completed
              cases completed
            rw [← named]
            exact released.acknowledge changed (completes acks task) unacked
        · exact released
      | extended matching visibleAt unacked touches after =>
        simp only [after, unacked]
        exact ticked.extend touches
  | none =>
    cases op with
    | ack | nack | quarantine | extend | addAndAck => cases lease
    | enqueue namespaceId runId queueName payload delayMs =>
      let task (id : Nat) : TaskRow :=
        { newTask namespaceId runId queueName payload (now.ms + delayMs) id with createdAt := now.ms }
      have pending (id : Nat) : (task id).id = id ∧ (task id).state = .pending ∧ (task id).leaseToken = none ∧
          (task id).reclaimCount = 0 := ⟨rfl, rfl, rfl, rfl⟩
      exact ticked.addTask pending
    | dequeue options => exact ticked.dequeue options
    | reclaimOrphanedLeases locked => exact ticked.reclaim locked
    | closeRun runId events budget => exact ticked.settles (closeWith_settled runId events budget state.db)
    | releaseQuarantined taskId =>
      have named (task : TaskRow) (matches' : (task.id == taskId && task.state == .quarantined) = true) :
          task.id = taskId := by
        simp only [Bool.and_eq_true, beq_iff_eq] at matches'
        exact matches'.1
      rcases updateTasks_cases (·.released now) invariant.ids named with
        ⟨no, same⟩ | ⟨yes, task, member, parked, id, -⟩
      · have unchanged : state.step poisonThreshold now (.releaseQuarantined taskId) = { state with clock := now } := by
          simp only [QueueState.step, QueueOp.run, Database.releaseQuarantined, no, same, QueueState.lostBy]
        rw [unchanged]
        exact ticked
      · have changed : state.step poisonThreshold now (.releaseQuarantined taskId) = { state with
            db := (state.db.releaseQuarantined now taskId).2
            clock := now
            lost := fun other => if other = taskId then 0 else state.lost other } := by
          simp only [QueueState.step, QueueOp.run, Database.releaseQuarantined, yes, QueueOp.lease, QueueState.lostBy]
        rw [changed]
        simp only [Bool.and_eq_true, beq_iff_eq] at parked
        exact ticked.release member id parked.2

/-- The invariant holds after every run, by induction on the run. -/
theorem queueRun_invariant (run : QueueRun poisonThreshold state) : LeaseInvariant poisonThreshold state := by
  induction run with
  | initial db clock empty =>
    constructor
    all_goals simp [empty]
  | step run op now later ih => exact ih.step op later

/-- Only due rows are handed out. -/
theorem delivered_due {op : QueueOp} {delivered : LeasedTask} (handed : delivered ∈ state.delivered poisonThreshold now op) :
    ∃ task ∈ state.db.tasks, task.id = delivered.id ∧ (task.state = .pending ∨ task.state = .leased) ∧ task.visibleAt ≤ now.ms := by
  cases op with
  | dequeue options =>
    have taken : delivered ∈ (state.db.nextTasks now options).filterMap fun task =>
        (TaskRow.taken now poisonThreshold options.visibilityTimeoutMs state.db.nextId
          (state.db.nextTasks now options) task).toLeasedTask := handed
    obtain ⟨task, due, leased⟩ := List.mem_filterMap.mp taken
    rw [TaskRow.toLeasedTask, Option.map_eq_some_iff] at leased
    obtain ⟨token, -, rfl⟩ := leased
    obtain ⟨listed, isDue⟩ := nextTasks_mem due
    exact ⟨task, listed, (TaskRow.taken_id task).symm, TaskRow.isDue_open isDue⟩
  | enqueue | ack | nack | quarantine | extend | addAndAck | reclaimOrphanedLeases | releaseQuarantined | closeRun =>
    cases handed

/-- A task that nobody may take is not handed out. -/
theorem delivered_apart (ids : (state.db.tasks.map TaskRow.id).Nodup) {op : QueueOp} {task : TaskRow}
    (member : task ∈ state.db.tasks) (shut : task.state = .completed ∨ task.state = .quarantined) :
    ∀ delivered ∈ state.delivered poisonThreshold now op, delivered.id ≠ task.id := by
  intro delivered handed same
  obtain ⟨other, listed, id, open', -⟩ := delivered_due handed
  rw [mem_ids ids listed member (id.trans same)] at open'
  rcases shut with completed | parked <;> rcases open' with pending | leased
  · cases completed.symm.trans pending
  · cases completed.symm.trans leased
  · cases parked.symm.trans pending
  · cases parked.symm.trans leased

theorem QueueSettling.keeps {db db' : Database} (step : QueueSettling db db') {task : TaskRow}
    (member : task ∈ db.tasks) (settled : task.state ≠ .pending) : task ∈ db'.tasks := by
  cases step with
  | withdrawn runId => exact List.mem_map.mpr ⟨task, member, if_neg fun withdrawn => settled withdrawn.2⟩
  | added => exact List.mem_append_left _ member
  | elsewhere tasks ids => exact tasks ▸ member

theorem QueueSettled.keeps {db db' : Database} (steps : QueueSettled db db') {task : TaskRow}
    (member : task ∈ db.tasks) (settled : task.state ≠ .pending) : task ∈ db'.tasks := by
  induction steps with
  | refl => exact member
  | tail _ step ih => exact step.keeps ih settled

/-- A `dequeue` leaves a task alone that nobody may take. -/
theorem TaskRow.taken_shut {db : Database} {options : DequeueOptions} {firstToken : Nat} {task : TaskRow}
    (ids : (db.tasks.map TaskRow.id).Nodup) (member : task ∈ db.tasks) (shut : ¬ (task.state = .pending ∨ task.state = .leased)) :
    task.taken now poisonThreshold options.visibilityTimeoutMs firstToken (db.nextTasks now options) = task := by
  rcases TaskRow.taken_cases task with ⟨-, same⟩ | ⟨position, inside, id, -⟩
  · exact same
  · obtain ⟨listed, isDue⟩ := nextTasks_mem (List.get_mem _ ⟨position, inside⟩)
    have open' := (TaskRow.isDue_open isDue).1
    rw [mem_ids ids listed member id] at open'
    exact absurd open' shut

/-- A task that nobody may take stays as it is until it is released. -/
theorem step_keeps (invariant : LeaseInvariant poisonThreshold state) {op : QueueOp} {task : TaskRow} (member : task ∈ state.db.tasks)
    (shut : task.state = .completed ∨ task.state = .quarantined ∧ op ≠ .releaseQuarantined task.id) :
    task ∈ (state.step poisonThreshold now op).db.tasks := by
  have unleased : task.state ≠ .leased := by
    rcases shut with completed | ⟨parked, -⟩
    · rw [completed]
      nofun
    · rw [parked]
      nofun
  have unpending : task.state ≠ .pending := by
    rcases shut with completed | ⟨parked, -⟩
    · rw [completed]
      nofun
    · rw [parked]
      nofun
  cases lease : op.lease with
  | some holder =>
    rcases step_holder poisonThreshold now lease invariant.ids with same | ⟨db', effect, same⟩
    · rw [same]
      exact member
    · have stays {matching : TaskRow → Bool} {change : TaskRow → TaskRow}
          (touches : Touches state.db db' holder matching change) : task ∈ db'.tasks := by
        rw [touches.tasks]
        refine List.mem_map.mpr ⟨task, member, if_neg fun matches' => unleased ?_⟩
        exact (TaskRow.isHeldBy_iff.mp (touches.held task matches')).2.2
      rw [same]
      cases effect with
      | letGo change lets completes touches after => exact stays touches
      | extended matching visibleAt unacked touches after => exact stays touches
  | none =>
    cases op with
    | ack | nack | quarantine | extend | addAndAck => cases lease
    | enqueue => exact List.mem_append_left _ member
    | dequeue options =>
      refine List.mem_map.mpr ⟨task, member, ?_⟩
      exact TaskRow.taken_shut invariant.ids member (not_or.mpr ⟨unpending, unleased⟩)
    | reclaimOrphanedLeases locked =>
      refine List.mem_map.mpr ⟨task, member, if_neg fun orphaned => unleased ?_⟩
      simp only [TaskRow.isOrphaned, Bool.and_eq_true, beq_iff_eq] at orphaned
      exact orphaned.1.1
    | releaseQuarantined taskId =>
      refine List.mem_map.mpr ⟨task, member, if_neg fun released => ?_⟩
      simp only [Bool.and_eq_true, beq_iff_eq] at released
      rcases shut with completed | ⟨-, kept⟩
      · cases completed.symm.trans released.2
      · exact kept (congrArg _ released.1.symm)
    | closeRun runId events budget =>
      exact (closeWith_settled runId events budget state.db).keeps member unpending

/-- In every run a task is leased exactly when it holds a token; a holder's operation changes no
task but the one it holds by the token of its latest delivery; acknowledgements succeed once and
completed tasks stay; no task is handed out while an earlier lease of it is on; and a task that
lost its lease too often is parked until it is released. -/
theorem taskLeases_safe (run : QueueRun poisonThreshold state) :
    (∀ task ∈ state.db.tasks, task.state = .leased ↔ task.leaseToken.isSome = true) ∧ state.acks.Nodup ∧
    ∀ now : Instant, state.clock.ms ≤ now.ms → ∀ op : QueueOp, (∀ holder, op.lease = some holder → ∀ task ∈ state.db.tasks,
        task ∉ (state.step poisonThreshold now op).db.tasks →
        task.id = holder.taskId ∧ task.state = .leased ∧ task.leaseToken = some holder.leaseToken ∧
          (latestLease state.leases task.id).map Lease.token = some holder.leaseToken) ∧ (∀ task ∈ state.db.tasks, task.state = .completed →
        task ∈ (state.step poisonThreshold now op).db.tasks ∧
          ∀ delivered ∈ state.delivered poisonThreshold now op, delivered.id ≠ task.id) ∧
      (∀ delivered ∈ state.delivered poisonThreshold now op, ∀ lease ∈ state.leases,
        lease.taskId = delivered.id → lease.released = true ∨ lease.expiresAt ≤ now.ms) ∧
      (∀ task ∈ state.db.tasks, poisonThreshold.value ≤ state.lost task.id → task.state = .quarantined ∧
          (∀ delivered ∈ state.delivered poisonThreshold now op, delivered.id ≠ task.id) ∧
          (op ≠ .releaseQuarantined task.id → task ∈ (state.step poisonThreshold now op).db.tasks)) := by
  have invariant := queueRun_invariant run
  refine ⟨invariant.leased, invariant.ackedOnce, fun now later op => ⟨?_, ?_, ?_, ?_⟩⟩
  · intro holder lease task member changed
    rcases step_holder poisonThreshold now lease invariant.ids with same | ⟨db', effect, same⟩
    · rw [same] at changed
      exact absurd member changed
    · rw [same] at changed
      have touched {matching : TaskRow → Bool} {change : TaskRow → TaskRow}
          (touches : Touches state.db db' holder matching change) :
          task.isHeldBy holder.taskId holder.leaseToken = true := by
        by_contra unheld
        refine changed ?_
        change task ∈ db'.tasks
        rw [touches.tasks]
        exact List.mem_map.mpr ⟨task, member, if_neg fun matches' => unheld (touches.held task matches')⟩
      have held : task.isHeldBy holder.taskId holder.leaseToken = true := by
        cases effect with
        | letGo change lets completes touches after => exact touched touches
        | extended matching visibleAt unacked touches after => exact touched touches
      obtain ⟨id, token, leased⟩ := TaskRow.isHeldBy_iff.mp held
      refine ⟨id, leased, token, ?_⟩
      rw [invariant.current task member holder.leaseToken token]
      rfl
  · intro task member completed
    exact ⟨step_keeps invariant member (.inl completed), delivered_apart invariant.ids member (.inl completed)⟩
  · intro delivered handed lease listed named
    obtain ⟨task, member, id, -, elapsed⟩ := delivered_due handed
    by_contra still
    rw [not_or, Bool.not_eq_true, not_le] at still
    obtain ⟨other, found, id', -, visible⟩ :=
      invariant.running lease listed still.1 (lt_of_le_of_lt later still.2)
    rw [mem_ids invariant.ids found member (id'.trans (named.trans id.symm))] at visible
    exact absurd (visible ▸ still.2) (not_lt.mpr elapsed)
  · intro task member often
    rw [← invariant.counted task member] at often
    have parked := invariant.poisoned task member often
    exact ⟨parked, delivered_apart invariant.ids member (.inr parked),
      fun kept => step_keeps invariant member (.inr ⟨parked, kept⟩)⟩

/-- Two seconds after the epoch. -/
def afterwards : Instant := ⟨2000, Workflow.twoSeconds_lower, Workflow.twoSeconds_upper⟩

theorem thrice_pos : 0 < 3 := by decide

theorem leaseMs_pos : 0 < 1000 := by decide

/-- A worker loses its lease of a task to another one, acknowledges it late, and then the other one does. -/
def lostLease : List (Instant × QueueOp) :=
  [(.epoch, .enqueue 0 0 "main" (.stepTask "step-1" "charge" .null 0) 0),
    (.epoch, .dequeue ⟨"main", 1000, leaseMs_pos, 1, Nat.one_pos, none, [], fun _ => false⟩),
    (afterwards, .reclaimOrphanedLeases fun _ => false),
    (afterwards, .dequeue ⟨"main", 1000, leaseMs_pos, 1, Nat.one_pos, none, [], fun _ => false⟩),
    (afterwards, .ack 0 1), (afterwards, .ack 0 2)]

def QueueState.steps (poisonThreshold : PoisonThreshold) (state : QueueState) (ops : List (Instant × QueueOp)) : QueueState :=
  ops.foldl (fun state op => state.step poisonThreshold op.1 op.2) state

def lostTask : QueueState := QueueState.steps ⟨3, thrice_pos⟩ ⟨emptyDatabase, .epoch, [], [], fun _ => 0⟩ lostLease

theorem taskLeases_safe_held : lostTask.leases.length = 2 ∧ lostTask.acks = [0] ∧ lostTask.acks.Nodup ∧
    ∀ task ∈ lostTask.db.tasks, task.state = .leased ↔ task.leaseToken.isSome = true := by
  have run : QueueRun ⟨3, thrice_pos⟩ lostTask :=
    .step (.step (.step (.step (.step (.step (.initial emptyDatabase .epoch rfl) _ .epoch (by decide)) _ .epoch (by decide))
      _ afterwards (by decide)) _ afterwards (by decide)) _ afterwards (by decide)) _ afterwards (by decide)
  exact ⟨rfl, rfl, (taskLeases_safe run).2.1, (taskLeases_safe run).1⟩

end Runs

end DurableExecution.Engine

import DurableExecution.Engine.Deliveries

/-
This file frames what happens to a world of workers: a relation that the operations and the
writes to the queue keep is kept by every action.
-/

namespace DurableExecution.Engine

open Workflow (Instant)
open Transaction

/-- Every task stays, for the same run and with the same payload. -/
def TasksStay (tasks tasks' : List TaskRow) : Prop :=
  ∀ task ∈ tasks, ∃ task' ∈ tasks', task'.id = task.id ∧ task'.runId = task.runId ∧ task'.payload = task.payload

/-- A relation that the operations keep, and whatever keeps the tasks and leaves the runs, the logs and the timers. -/
structure WorldFrame (relation : Database → Database → Prop) : Prop extends WholeFrame relation where
  queued : ∀ (db : Database) (tasks : List TaskRow) (deadLetters : List DeadLetterRow) (nextId : Nat),
    TasksStay db.tasks tasks → db.nextId ≤ nextId →
      relation db { db with tasks := tasks, deadLetters := deadLetters, nextId := nextId }

section Tasks

variable {tasks tasks' tasks'' : List TaskRow}

theorem TasksStay.refl (tasks : List TaskRow) : TasksStay tasks tasks := fun task listed => ⟨task, listed, rfl, rfl, rfl⟩

theorem TasksStay.trans (first : TasksStay tasks tasks') (second : TasksStay tasks' tasks'') : TasksStay tasks tasks'' := by
  intro task listed
  obtain ⟨task', listed', id', run', payload'⟩ := first task listed
  obtain ⟨task'', listed'', id'', run'', payload''⟩ := second task' listed'
  exact ⟨task'', listed'', id''.trans id', run''.trans run', payload''.trans payload'⟩

theorem TasksStay.append (tasks more : List TaskRow) : TasksStay tasks (tasks ++ more) :=
  fun task listed => ⟨task, List.mem_append_left _ listed, rfl, rfl, rfl⟩

theorem TasksStay.map (tasks : List TaskRow) {change : TaskRow → TaskRow}
    (keeps : ∀ task, (change task).id = task.id ∧ (change task).runId = task.runId ∧ (change task).payload = task.payload) :
    TasksStay tasks (tasks.map change) :=
  fun task listed => ⟨change task, List.mem_map_of_mem listed, keeps task⟩

theorem TasksStay.update (tasks : List TaskRow) (matching : TaskRow → Bool) {change : TaskRow → TaskRow}
    (keeps : ∀ task, (change task).id = task.id ∧ (change task).runId = task.runId ∧ (change task).payload = task.payload) :
    TasksStay tasks (tasks.map fun task => if matching task then change task else task) := by
  refine .map tasks fun task => ?_
  split
  · exact keeps task
  · exact ⟨rfl, rfl, rfl⟩

theorem TaskRow.taken_stays (now : Instant) (poisonThreshold : PoisonThreshold) (visibilityTimeoutMs firstToken : Nat)
    (next : List TaskRow) (task : TaskRow) : (task.taken now poisonThreshold visibilityTimeoutMs firstToken next).id = task.id ∧
      (task.taken now poisonThreshold visibilityTimeoutMs firstToken next).runId = task.runId ∧
      (task.taken now poisonThreshold visibilityTimeoutMs firstToken next).payload = task.payload := by
  unfold TaskRow.taken
  split
  · simp
  · split <;> simp [TaskRow.parked, TaskRow.delivered]

end Tasks

section Worlds

variable {relation : Database → Database → Prop} (frame : WorldFrame relation)

include frame

theorem Upkeep.apply_kept (now : Instant) (db : Database) (upkeep : Upkeep) : relation db (upkeep.apply now db) := by
  cases upkeep with
  | ack taskId leaseToken => exact frame.queued db _ _ _ (.update _ _ fun _ => ⟨rfl, rfl, rfl⟩) le_rfl
  | nack taskId leaseToken delayMs => exact frame.queued db _ _ _ (.update _ _ fun _ => ⟨rfl, rfl, rfl⟩) le_rfl
  | quarantine taskId leaseToken => exact frame.queued db _ _ _ (.update _ _ fun _ => ⟨rfl, rfl, rfl⟩) le_rfl
  | extend taskId leaseToken visibilityTimeoutMs => exact frame.queued db _ _ _ (.update _ _ fun _ => ⟨rfl, rfl, rfl⟩) le_rfl
  | reclaim poisonThreshold locked => exact frame.queued db _ _ _ (.update _ _ fun _ => ⟨rfl, rfl, rfl⟩) le_rfl
  | release taskId => exact frame.queued db _ _ _ (.update _ _ fun _ => ⟨rfl, rfl, rfl⟩) le_rfl
  | enqueue namespaceId runId queueName payload delayMs => exact frame.queued db _ _ _ (.append _ _) (Nat.le_succ _)
  | requeue deadLetterId =>
    rw [Upkeep.apply, Database.requeue]
    split
    · exact frame.refl db
    · exact frame.queued db _ _ _ (.append _ _) (Nat.le_succ _)

theorem addAndAck_kept (input : AddDeadLetterInput) (lease : TaskLease) (options : RecorderOptions)
    (result : RecordStepResultInput) (now : Instant) (budget : Option Nat) (db : Database) :
    relation db (addAndAck input lease (discard (recordStepResultOn options result)) now budget db).2 := by
  refine withTransaction_keeps frame.refl ?_ budget db
  refine frame.toFrame.log.then (recordStepResultOn_kept frame.toWholeFrame options result).discard fun _ => ?_
  refine frame.toFrame.log.then (.statement fun db answer db' acked => ?_) fun acked => ?_
  · cases acked
    exact frame.queued db _ _ _ (.update _ _ fun _ => ⟨rfl, rfl, rfl⟩) le_rfl
  · split
    · refine .statement fun db answer db' inserted => ?_
      split at inserted
      · cases inserted
        exact frame.refl db
      · split at inserted
        · cases inserted
          exact frame.queued db _ _ _ (.refl _) (Nat.le_succ _)
        · cases inserted
    · exact .raise _

theorem StepEffect.kept {surroundings : Surroundings} {delivery : StepDelivery} {db db' : Database}
    (effect : StepEffect surroundings delivery db db') : relation db db' := by
  cases effect with
  | unchanged => exact frame.refl db
  | acked => exact frame.queued db _ _ _ (.update _ _ fun _ => ⟨rfl, rfl, rfl⟩) le_rfl
  | nacked delayMs => exact frame.queued db _ _ _ (.update _ _ fun _ => ⟨rfl, rfl, rfl⟩) le_rfl
  | woken => exact frame.queued db _ _ _ (.append _ _) (Nat.le_succ _)
  | recorded attempt outcome =>
    exact withTransaction_keeps frame.refl (recordStepResultOn_kept frame.toWholeFrame _ _) surroundings.budget db
  | noted attempt error retryAt =>
    exact withTransaction_keeps frame.refl (recordFailureOn_kept frame.toWholeFrame _) surroundings.budget db
  | parked attempt error => exact addAndAck_kept frame _ _ _ _ _ _ db

/-- Every action keeps the relation, when the mark of a decision that is about to be stored does. -/
theorem World.act_kept (known : String → Option StepDefinition) (world : World) (now : Instant) (action : Action)
    (marked : ∀ index surroundings decided delivery, action = .advanceDecision index surroundings decided →
      world.decisions[index]? = some delivery → delivery.phase = .marking → surroundings.fails = false → relation world.db
        (world.db.markRunWaiting delivery.task.runId decided.waitingOn (decide (0 < decided.commands.length)))) :
    relation world.db (world.act known now action).db := by
  cases action with
  | operate op budget apart =>
    exact withTransaction_keeps frame.refl (op.work_whole frame.toWholeFrame) budget world.db
  | keepUp upkeep => exact upkeep.apply_kept frame now world.db
  | dequeue poisonThreshold options =>
    exact frame.queued world.db _ _ _ (.map _ fun task => task.taken_stays now _ _ _ _) (Nat.le_add_right _ _)
  | advanceStep index surroundings =>
    simp only [World.act]
    split
    · exact frame.refl world.db
    · exact (StepDelivery.advance_effect known).kept frame
  | advanceDecision index surroundings decided =>
    simp only [World.act]
    cases found : world.decisions[index]? with
    | none => exact frame.refl world.db
    | some delivery =>
      exact delivery.advance_keeps frame.toFrame surroundings decided world.db
        fun phase works => marked index surroundings decided delivery rfl found phase works

end Worlds

end DurableExecution.Engine

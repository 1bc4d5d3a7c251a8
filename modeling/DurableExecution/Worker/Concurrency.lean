import DurableExecution.Worker.Worker

/-
This file counts the running tasks of a worker. It shows that a worker to which no task is delivered
while it still runs that task keeps to its concurrency, and that its stop waits for or drops each of them.
-/

namespace DurableExecution.Worker

variable {options : WorkerOptions} {allowed : WorkerOp → WorkerWorld → Prop} {world start : WorkerWorld}
  {running changed : RunningTask} {leaseToken : LeaseToken}

section Tokens

/-- Each delivery has a lease token of its own. -/
structure Minted (world : WorkerWorld) : Prop where
  distinct : (world.running.map fun running => running.task.leaseToken).Nodup
  below : ∀ running ∈ world.running, running.task.leaseToken < world.nextToken
  arriving : ∀ tasks, world.poll = .arriving tasks → (tasks.map LeasedTask.leaseToken).Nodup ∧
    ∀ task ∈ tasks, task.leaseToken < world.nextToken ∧ ∀ running ∈ world.running, running.task.leaseToken ≠ task.leaseToken

theorem find?_some (found : world.find? leaseToken = some running) : running ∈ world.running ∧ running.task.leaseToken = leaseToken := by
  refine ⟨List.mem_of_find?_eq_some found, ?_⟩
  simpa using List.find?_some found

theorem Minted.same (minted : Minted world) {other : RunningTask} (member : running ∈ world.running)
    (member' : other ∈ world.running) (same : other.task.leaseToken = running.task.leaseToken) : other = running :=
  List.inj_on_of_nodup_map minted.distinct member' member same

theorem leaseTasks_tokens (nextToken : LeaseToken) (tasks : List (TaskId × Nat)) :
    (leaseTasks nextToken tasks).map LeasedTask.leaseToken = List.range' nextToken tasks.length := by
  unfold leaseTasks
  rw [List.map_map, ← List.zipIdx_map_snd]
  rfl

theorem launch_tokens (now : Int) (tasks : List LeasedTask) (running : List RunningTask) :
    (tasks.foldl (launch now) running).map (fun running => running.task.leaseToken) =
      running.map (fun running => running.task.leaseToken) ++ tasks.map LeasedTask.leaseToken := by
  induction tasks generalizing running with
  | nil => simp
  | cons task rest ih =>
    rw [List.foldl_cons, ih]
    have kept : (deleteTask task.id running).map (fun running => running.task.leaseToken) =
        running.map fun running => running.task.leaseToken := by
      unfold deleteTask
      rw [List.map_map]
      refine List.map_congr_left fun other _ => ?_
      rw [Function.comp_apply]
      split <;> rfl
    rw [launch, List.map_append, kept, List.map_cons, List.append_assoc]
    rfl

/-- Steps that only change running tasks in place keep the tokens. -/
theorem Minted.map (minted : Minted world) {later : WorkerWorld} (move : RunningTask → RunningTask)
    (moved : later.running = world.running.map move) (task : ∀ running ∈ world.running, (move running).task = running.task)
    (next : world.nextToken ≤ later.nextToken)
    (poll : ∀ tasks, later.poll = .arriving tasks → world.poll = .arriving tasks ∨ tasks = []) : Minted later where
  distinct := by
    rw [moved, List.map_map]
    have same : world.running.map ((fun running => running.task.leaseToken) ∘ move) =
        world.running.map fun running => running.task.leaseToken := by
      refine List.map_congr_left fun running own => ?_
      rw [Function.comp_apply, task running own]
    rw [same]
    exact minted.distinct
  below := by
    intro running member
    rw [moved] at member
    obtain ⟨before, member', rfl⟩ := List.mem_map.mp member
    rw [task before member']
    exact Nat.lt_of_lt_of_le (minted.below before member') next
  arriving := by
    intro tasks at'
    rcases poll tasks at' with at' | rfl
    · obtain ⟨distinct, fresh⟩ := minted.arriving tasks at'
      refine ⟨distinct, fun leased member => ⟨Nat.lt_of_lt_of_le (fresh leased member).1 next, fun running own => ?_⟩⟩
      rw [moved] at own
      obtain ⟨before, own', rfl⟩ := List.mem_map.mp own
      rw [task before own']
      exact (fresh leased member).2 before own'
    · exact ⟨List.nodup_nil, fun _ none' => absurd none' List.not_mem_nil⟩

/-- Steps that leave the running tasks alone keep the tokens. -/
theorem Minted.frame (minted : Minted world) {later : WorkerWorld} (same : later.running = world.running)
    (next : world.nextToken ≤ later.nextToken)
    (poll : ∀ tasks, later.poll = .arriving tasks → world.poll = .arriving tasks ∨ tasks = []) : Minted later :=
  minted.map id (same.trans (List.map_id _).symm) (fun _ _ => rfl) next poll

theorem wake_running (world : WorkerWorld) : world.wake.running = world.running := by
  unfold WorkerWorld.wake
  split <;> rfl

theorem wake_nextToken (world : WorkerWorld) : world.wake.nextToken = world.nextToken := by
  unfold WorkerWorld.wake
  split <;> rfl

theorem wake_arriving {tasks : List LeasedTask} (at' : world.wake.poll = .arriving tasks) : world.poll = .arriving tasks := by
  unfold WorkerWorld.wake at at'
  split at at'
  · cases at'
  · exact at'

theorem Minted.wake (minted : Minted world) : Minted world.wake :=
  minted.frame (wake_running world) (Nat.le_of_eq (wake_nextToken world).symm) fun _ at' => .inl (wake_arriving at')

/-- What a step of a delivery is: none, or the one that its stage allows. -/
inductive TaskStep (options : WorkerOptions) (running : RunningTask) : TaskOp → RunningTask × List QueueCall × Bool → Prop where
  | idle (op : TaskOp) : TaskStep options running op (running, [], false)
  | beats (at' : running.heartbeat = .scheduled) :
      TaskStep options running .beats ({ running with heartbeat := .extending }, [], false)
  | extended (now : Int) (answer : LeaseAnswer) (at' : running.heartbeat = .extending) :
      TaskStep options running (.extended now answer) (beat options now running answer, [], false)
  | ends (outcome : HandlerOutcome) (at' : running.stage = .handling) :
      TaskStep options running (.ends outcome) ((settle options running outcome).1, (settle options running outcome).2, false)
  | answered (at' : running.stage = .calling) :
      TaskStep options running .answered ({ running with stage := .settled }, [], false)
  | deletes (at' : running.stage = .settled) : TaskStep options running .deletes ({ running with stage := .done }, [], true)
  | nacks (at' : running.drop = .grace) :
      TaskStep options running .nacks ({ running with drop := .nacking }, [running.call (.nack 0)], false)
  | forgets (at' : running.drop = .nacking) : TaskStep options running .forgets ({ running with drop := .ended }, [], true)

theorem TaskOp.run_steps (options : WorkerOptions) (running : RunningTask) (op : TaskOp) :
    TaskStep options running op (op.run options running) := by
  cases op with
  | beats =>
    simp only [TaskOp.run]
    split
    · next at' => exact .beats at'
    · exact .idle _
  | extended now answer =>
    simp only [TaskOp.run]
    split
    · next at' => exact .extended now answer at'
    · exact .idle _
  | ends outcome =>
    simp only [TaskOp.run]
    split
    · next at' => exact .ends outcome at'
    · exact .idle _
  | answered =>
    simp only [TaskOp.run]
    split
    · next at' => exact .answered at'
    · exact .idle _
  | deletes =>
    simp only [TaskOp.run]
    split
    · next at' => exact .deletes at'
    · exact .idle _
  | nacks =>
    simp only [TaskOp.run]
    split
    · next at' => exact .nacks at'
    · exact .idle _
  | forgets =>
    simp only [TaskOp.run]
    split
    · next at' => exact .forgets at'
    · exact .idle _

/-- A heartbeat may abort a delivery that is not finished; nothing else but its own flags changes. -/
theorem beat_keeps (options : WorkerOptions) (now : Int) (running : RunningTask) (answer : LeaseAnswer) :
    let later := beat options now running answer
    later.task = running.task ∧ later.mapped = running.mapped ∧ later.stage = running.stage ∧ later.drop = running.drop ∧
      later.dropped = running.dropped ∧ later.ending = running.ending ∧
      (later.finished = running.finished ∧ later.aborted = running.aborted ∨
        running.finished = false ∧ later.finished = true ∧ later.aborted = running.aborted.or (some .leaseLost)) := by
  have ends' {held : Bool} {begun : RunningTask} :
      let later := if running.finished then begun
        else if !held then { begun with finished := true, aborted := begun.aborted.or (some .leaseLost) }
        else { begun with heartbeat := .scheduled }
      begun.finished = running.finished → begun.aborted = running.aborted →
      later.task = begun.task ∧ later.mapped = begun.mapped ∧ later.stage = begun.stage ∧ later.drop = begun.drop ∧
        later.dropped = begun.dropped ∧ later.ending = begun.ending ∧
        (later.finished = running.finished ∧ later.aborted = running.aborted ∨
          running.finished = false ∧ later.finished = true ∧ later.aborted = running.aborted.or (some .leaseLost)) := by
    intro later finished aborted
    dsimp only [later]
    split
    · exact ⟨rfl, rfl, rfl, rfl, rfl, rfl, .inl ⟨finished, aborted⟩⟩
    · next open' =>
        have still : running.finished = false := by simpa using open'
        split
        · exact ⟨rfl, rfl, rfl, rfl, rfl, rfl, .inr ⟨still, rfl, by rw [aborted]⟩⟩
        · exact ⟨rfl, rfl, rfl, rfl, rfl, rfl, .inl ⟨finished, aborted⟩⟩
  exact ends' rfl rfl

/-- The end of a handler settles the delivery with one call, unless it was aborted or dropped. -/
theorem settle_keeps (options : WorkerOptions) (running : RunningTask) (outcome : HandlerOutcome) :
    let later := (settle options running outcome).1
    later.task = running.task ∧ later.mapped = running.mapped ∧ later.drop = running.drop ∧
      later.dropped = running.dropped ∧ later.aborted = running.aborted ∧ later.finished = true ∧
      later.ending = some ⟨outcome, running.aborted.isSome, running.dropped⟩ ∧
      ((running.dropped = true ∨ running.aborted.isSome = true) ∧ later.stage = .settled ∧
          (settle options running outcome).2 = [] ∨
        running.dropped = false ∧ running.aborted.isSome = false ∧ later.stage = .calling ∧
          (settle options running outcome).2 = [running.call (settlementFor options running.task outcome)]) := by
  unfold settle
  dsimp only
  split
  · next left =>
      refine ⟨rfl, rfl, rfl, rfl, rfl, rfl, rfl, .inl ⟨?_, rfl, rfl⟩⟩
      simpa [RunningTask.stopHeartbeat] using left
  · next left =>
      simp only [RunningTask.stopHeartbeat, Bool.or_eq_true, not_or, Bool.not_eq_true] at left
      exact ⟨rfl, rfl, rfl, rfl, rfl, rfl, rfl, .inr ⟨left.1, left.2, rfl, rfl⟩⟩

/-- What a step of a delivery makes of every running task. -/
def TaskOp.move (options : WorkerOptions) (running : RunningTask) (op : TaskOp) (other : RunningTask) : RunningTask :=
  let stepped := op.run options running
  let other := if other.task.leaseToken = running.task.leaseToken then stepped.1 else other
  if stepped.2.2 ∧ other.task.id = running.task.id then { other with mapped := false } else other

/-- A step of a delivery keeps its task. -/
theorem TaskStep.task {op : TaskOp} {stepped : RunningTask × List QueueCall × Bool}
    (step : TaskStep options running op stepped) : stepped.1.task = running.task := by
  cases step with
  | idle | beats | answered | deletes | nacks | forgets => rfl
  | extended now answer => exact (beat_keeps options now running answer).1
  | ends outcome => exact (settle_keeps options running outcome).1

theorem TaskOp.move_task (options : WorkerOptions) (minted : Minted world) (member : running ∈ world.running) (op : TaskOp)
    {other : RunningTask} (own : other ∈ world.running) : (op.move options running other).task = other.task := by
  unfold TaskOp.move
  dsimp only
  by_cases same : other.task.leaseToken = running.task.leaseToken
  · obtain rfl := minted.same member own same
    rw [if_pos rfl]
    split <;> exact (op.run_steps options other).task
  · rw [if_neg same]
    split <;> rfl

/-- A step of a delivery, before it wakes the poll loop. -/
def WorkerWorld.stepTask (options : WorkerOptions) (running : RunningTask) (op : TaskOp) (world : WorkerWorld) : WorkerWorld :=
  { world with
    running := world.running.map (op.move options running)
    calls := world.calls ++ (op.run options running).2.1 }

theorem task_run (options : WorkerOptions) (found : world.find? leaseToken = some running) (op : TaskOp) :
    (WorkerOp.task leaseToken op).run options world = world.stepTask options running op ∨
      (WorkerOp.task leaseToken op).run options world = (world.stepTask options running op).wake := by
  obtain ⟨-, rfl⟩ := find?_some found
  have moves : (if (op.run options running).2.2 then
      deleteTask running.task.id (updateTask running.task.leaseToken (fun _ => (op.run options running).1) world.running)
      else updateTask running.task.leaseToken (fun _ => (op.run options running).1) world.running) =
      world.running.map (op.move options running) := by
    split
    · next deletes =>
        unfold deleteTask updateTask
        rw [List.map_map]
        refine List.map_congr_left fun other _ => ?_
        simp [Function.comp_apply, TaskOp.move, deletes]
    · next deletes =>
        unfold updateTask
        refine List.map_congr_left fun other _ => ?_
        simp [TaskOp.move, deletes]
  unfold WorkerWorld.stepTask
  rw [← moves]
  simp only [WorkerOp.run, found]
  split
  · split
    · exact .inr rfl
    · exact .inl rfl
  · exact .inl rfl

theorem Minted.stepTask (options : WorkerOptions) (minted : Minted world) (member : running ∈ world.running) (op : TaskOp) :
    Minted (world.stepTask options running op) :=
  minted.map (op.move options running) rfl (fun _ own => op.move_task options minted member own) (Nat.le_refl _)
    fun _ at' => .inl at'

/-- Every operation gives each delivery a lease token of its own. -/
theorem Minted.step (options : WorkerOptions) (minted : Minted world) (op : WorkerOp) : Minted (op.run options world) := by
  cases op with
  | start =>
    simp only [WorkerOp.run]
    split
    · exact minted.frame rfl (Nat.le_refl _) fun _ at' => nomatch at'
    · exact minted
  | looks =>
    simp only [WorkerOp.run]
    split
    · split
      · refine minted.frame rfl (Nat.le_refl _) fun _ at' => ?_
        dsimp only at at'
        split at at' <;> cases at'
      · exact minted.frame rfl (Nat.le_refl _) fun _ at' => nomatch at'
    · exact minted
  | budgets budget =>
    simp only [WorkerOp.run]
    split
    · refine minted.frame rfl (Nat.le_refl _) fun _ at' => .inr ?_
      dsimp only at at'
      split at at'
      · cases at'
        rfl
      · cases at'
    · exact minted
  | leases tasks =>
    simp only [WorkerOp.run]
    split
    · split
      · have tokens := leaseTasks_tokens world.nextToken tasks
        refine ⟨minted.distinct, fun running own => Nat.lt_of_lt_of_le (minted.below running own) (Nat.le_add_right _ _), ?_⟩
        rintro leased ⟨⟩
        refine ⟨tokens ▸ List.nodup_range', fun task member => ?_⟩
        have listed := List.mem_map_of_mem (f := LeasedTask.leaseToken) member
        rw [tokens, List.mem_range'_1] at listed
        exact ⟨listed.2, fun running own => Nat.ne_of_lt (Nat.lt_of_lt_of_le (minted.below running own) listed.1)⟩
      · exact minted
    · exact minted
  | dequeueFails =>
    simp only [WorkerOp.run]
    split
    · refine minted.frame rfl (Nat.le_refl _) ?_
      rintro _ ⟨⟩
      exact .inr rfl
    · refine minted.frame rfl (Nat.le_refl _) ?_
      rintro _ ⟨⟩
      exact .inr rfl
    · exact minted
  | arrives now =>
    simp only [WorkerOp.run]
    split
    · next tasks at' =>
        split
        · exact minted.frame rfl (Nat.le_refl _) fun _ at' => nomatch at'
        · split
          · exact minted.frame rfl (Nat.le_refl _) fun _ at' => nomatch at'
          · obtain ⟨distinct, fresh⟩ := minted.arriving tasks at'
            have tokens := launch_tokens now tasks world.running
            refine ⟨?_, fun running own => ?_, fun _ at' => nomatch at'⟩
            · dsimp only
              rw [tokens]
              refine List.nodup_append.mpr ⟨minted.distinct, distinct, ?_⟩
              intro token old other new same
              obtain ⟨running, own, rfl⟩ := List.mem_map.mp old
              obtain ⟨task, member, rfl⟩ := List.mem_map.mp new
              exact (fresh task member).2 running own same
            · have listed := List.mem_map_of_mem (f := fun running : RunningTask => running.task.leaseToken) own
              rw [tokens] at listed
              rcases List.mem_append.mp listed with old | new
              · obtain ⟨before, own, same⟩ := List.mem_map.mp old
                exact same ▸ minted.below before own
              · obtain ⟨task, member, same⟩ := List.mem_map.mp new
                exact same ▸ (fresh task member).1
    · exact minted
  | releases =>
    simp only [WorkerOp.run]
    split
    · exact minted.frame rfl (Nat.le_refl _) fun _ at' => nomatch at'
    · exact minted.frame rfl (Nat.le_refl _) fun _ at' => nomatch at'
    · exact minted
  | wakes => exact minted.wake
  | task leaseToken op =>
    cases found : world.find? leaseToken with
    | none =>
      simp only [WorkerOp.run, found]
      exact minted
    | some running =>
      have stepped := minted.stepTask options (find?_some found).1 op
      rcases task_run options found op with same | same
      · exact same ▸ stepped
      · exact same ▸ stepped.wake
  | stops =>
    simp only [WorkerOp.run]
    split
    · have stopping : Minted { world with state := .stopping, shutdown := .joining } :=
        minted.frame rfl (Nat.le_refl _) fun _ at' => .inl at'
      exact stopping.wake
    · exact minted
  | joins =>
    simp only [WorkerOp.run]
    split
    · exact minted.frame rfl (Nat.le_refl _) fun _ at' => .inl at'
    · exact minted.frame rfl (Nat.le_refl _) fun _ at' => .inl at'
    · exact minted
  | finishes | stopped =>
    simp only [WorkerOp.run]
    split
    · split
      · exact minted.frame rfl (Nat.le_refl _) fun _ at' => .inl at'
      · exact minted
    · exact minted
  | timesOut =>
    simp only [WorkerOp.run]
    split
    · refine minted.map _ rfl (fun running _ => ?_) (Nat.le_refl _) fun _ at' => .inl at'
      split <;> rfl
    · exact minted
  | handles call =>
    simp only [WorkerOp.run]
    split
    · exact minted.frame rfl (Nat.le_refl _) fun _ at' => .inl at'
    · exact minted
  | relets id taken =>
    exact minted.frame rfl (Nat.le_succ _) fun _ at' => .inl at'

end Tokens

section Counting

/-- A delivery is in progress until its `execute` is done. -/
def RunningTask.inProgress (running : RunningTask) : Bool := running.stage ≠ .done

def WorkerWorld.inProgress (world : WorkerWorld) : Nat := world.running.countP RunningTask.inProgress

/-- The handler invocations that have not ended. -/
def WorkerWorld.handling (world : WorkerWorld) : Nat := world.running.countP fun running => running.stage = .handling

/-- The deliveries whose handler has ended and which are being settled. -/
def WorkerWorld.settling (world : WorkerWorld) : Nat :=
  world.running.countP fun running => running.stage = .calling || running.stage = .settled

/-- How many tasks a poll may still start. -/
def PollStage.asked : PollStage → Nat
  | .budgeting free => free
  | .dequeuing limit => limit
  | .arriving tasks => tasks.length
  | _ => 0

/-- No poll starts a task that is still in flight, or one task twice. -/
def Apart (op : WorkerOp) (world : WorkerWorld) : Prop :=
  match op, world.poll with
  | .arrives _, .arriving tasks => world.state = .running → (tasks.map LeasedTask.id).Nodup ∧
      ∀ task ∈ tasks, ∀ running ∈ world.running, running.mapped = true → running.task.id ≠ task.id
  | _, _ => True

def RunningTask.Active (running : RunningTask) : Prop := running.stage ≠ .done ∨ running.drop ≠ .none

/-- What holds while no task is delivered that is still in flight. -/
structure Counted (options : WorkerOptions) (world : WorkerWorld) : Prop where
  minted : Minted world
  mapped : ∀ running ∈ world.running, running.mapped = true ↔ running.stage ≠ .done ∧ running.drop ≠ .ended
  alone : ∀ one ∈ world.running, ∀ two ∈ world.running, one.Active → two.Active → one.task.id = two.task.id → one = two
  slots : world.inProgress + world.poll.asked ≤ options.concurrency
  early : world.state = .idle ∨ world.state = .running → world.shutdown = .none
  undropped : world.shutdown = .none ∨ world.shutdown = .joining ∨ (∃ tokens, world.shutdown = .waiting tokens) →
    ∀ running ∈ world.running, running.drop = .none
  rests : world.shutdown = .none ∨ world.shutdown = .joining ∨ world.poll = .idle ∨ world.poll = .ended
  snapshot : ∀ tokens, world.shutdown = .waiting tokens →
    (∀ running ∈ world.running, running.stage ≠ .done → running.task.leaseToken ∈ tokens) ∧
    ∀ one ∈ world.running, ∀ two ∈ world.running, one.task.leaseToken ∈ tokens → two.task.leaseToken ∈ tokens →
      one.task.id = two.task.id → one = two
  stragglers : ∀ tokens, world.shutdown = .dropping tokens →
    ∀ running ∈ world.running, running.stage ≠ .done → running.task.leaseToken ∈ tokens
  ended : world.shutdown = .ended → ∀ running ∈ world.running, running.stage = .done ∨ running.drop = .ended

/-- A step of a delivery goes on, and `inFlight` follows it. -/
structure Steady (before after : RunningTask) : Prop where
  task : after.task = before.task
  done : before.stage = .done → after.stage = .done
  drop : after.drop = .none ↔ before.drop = .none
  forgotten : before.drop = .ended → after.drop = .ended
  mapped : after.mapped = true ↔ after.stage ≠ .done ∧ after.drop ≠ .ended

theorem Steady.active {before after : RunningTask} (steady : Steady before after) (active : after.Active) : before.Active :=
  active.imp (fun onward done => onward (steady.done done)) fun dropped none' => dropped (steady.drop.mpr none')

theorem Counted.activeCount (counted : Counted options world) (undropped : ∀ running ∈ world.running, running.drop = .none) :
    world.activeCount = world.inProgress := by
  refine List.countP_congr fun running own => ?_
  rw [counted.mapped running own, undropped running own]
  simp [RunningTask.inProgress]

/-- Steps of running tasks in place. -/
theorem Counted.map (counted : Counted options world) {later : WorkerWorld} (move : RunningTask → RunningTask)
    (minted : Minted later) (moved : later.running = world.running.map move)
    (steady : ∀ running ∈ world.running, Steady running (move running)) (state : later.state = world.state)
    (poll : later.poll = world.poll) (shutdown : later.shutdown = world.shutdown) : Counted options later where
  minted := minted
  mapped := by
    intro running own
    rw [moved] at own
    obtain ⟨before, own', rfl⟩ := List.mem_map.mp own
    exact (steady before own').mapped
  alone := by
    intro one own two own' active active' same
    rw [moved] at own own'
    obtain ⟨before, member, rfl⟩ := List.mem_map.mp own
    obtain ⟨before', member', rfl⟩ := List.mem_map.mp own'
    rw [(steady before member).task, (steady before' member').task] at same
    rw [counted.alone before member before' member' ((steady before member).active active)
      ((steady before' member').active active') same]
  slots := by
    have less : later.inProgress ≤ world.inProgress := by
      unfold WorkerWorld.inProgress
      rw [moved, List.countP_map]
      refine List.countP_mono_left fun running own onward => ?_
      have kept := (steady running own).done
      simp only [Function.comp_apply, RunningTask.inProgress, decide_eq_true_eq] at onward ⊢
      exact fun done => onward (kept done)
    have slots := counted.slots
    rw [poll]
    omega
  early := by
    rw [state, shutdown]
    exact counted.early
  undropped := by
    rw [shutdown]
    intro before running own
    rw [moved] at own
    obtain ⟨first, own', rfl⟩ := List.mem_map.mp own
    exact (steady first own').drop.mpr (counted.undropped before first own')
  rests := by
    rw [shutdown, poll]
    exact counted.rests
  snapshot := by
    rw [shutdown, moved]
    intro tokens at'
    obtain ⟨all, apart⟩ := counted.snapshot tokens at'
    constructor
    · intro running own onward
      obtain ⟨before, own', rfl⟩ := List.mem_map.mp own
      rw [(steady before own').task]
      exact all before own' fun done => onward ((steady before own').done done)
    · intro one own two own' listed listed' same
      obtain ⟨before, member, rfl⟩ := List.mem_map.mp own
      obtain ⟨before', member', rfl⟩ := List.mem_map.mp own'
      rw [(steady before member).task] at listed same
      rw [(steady before' member').task] at listed' same
      rw [apart before member before' member' listed listed' same]
  stragglers := by
    rw [shutdown, moved]
    intro tokens at' running own onward
    obtain ⟨before, own', rfl⟩ := List.mem_map.mp own
    rw [(steady before own').task]
    exact counted.stragglers tokens at' before own' fun done => onward ((steady before own').done done)
  ended := by
    rw [shutdown, moved]
    intro at' running own
    obtain ⟨before, own', rfl⟩ := List.mem_map.mp own
    exact (counted.ended at' before own').imp (steady before own').done (steady before own').forgotten

/-- Steps that leave the running tasks and the shutdown alone. -/
theorem Counted.frame (counted : Counted options world) {later : WorkerWorld} (minted : Minted later)
    (same : later.running = world.running) (shutdown : later.shutdown = world.shutdown)
    (state : later.state = .idle ∨ later.state = .running → world.state = .idle ∨ world.state = .running)
    (asked : world.inProgress + later.poll.asked ≤ options.concurrency)
    (rests : world.shutdown = .none ∨ (world.poll = .idle ∨ world.poll = .ended → later.poll = .idle ∨ later.poll = .ended)) :
    Counted options later where
  minted := minted
  mapped := same ▸ counted.mapped
  alone := same ▸ counted.alone
  slots := by
    unfold WorkerWorld.inProgress at asked ⊢
    rw [same]
    exact asked
  early early := shutdown.trans (counted.early (state early))
  undropped := by
    rw [shutdown, same]
    exact counted.undropped
  rests := by
    rw [shutdown]
    rcases rests with none' | kept
    · exact .inl none'
    · exact counted.rests.imp_right fun either => either.imp_right kept
  snapshot := by
    rw [shutdown, same]
    exact counted.snapshot
  stragglers := by
    rw [shutdown, same]
    exact counted.stragglers
  ended := by
    rw [shutdown, same]
    exact counted.ended

theorem Counted.wake (counted : Counted options world) : Counted options world.wake := by
  have minted := counted.minted.wake
  have slots := counted.slots
  unfold WorkerWorld.wake at minted ⊢
  split at minted
  · next at' =>
      rw [at'] at slots
      refine counted.frame minted rfl rfl (fun same => same) slots (.inr fun resting => ?_)
      rw [at'] at resting
      exact resting.elim (fun same => nomatch same) fun same => nomatch same
  · exact counted

/-- A step of the delivery itself. -/
theorem TaskStep.steady {op : TaskOp} {stepped : RunningTask × List QueueCall × Bool}
    (step : TaskStep options running op stepped) (mapped : running.mapped = true ↔ running.stage ≠ .done ∧ running.drop ≠ .ended) :
    Steady running (if stepped.2.2 then { stepped.1 with mapped := false } else stepped.1) := by
  cases step with
  | idle => exact ⟨rfl, id, Iff.rfl, id, mapped⟩
  | beats => exact ⟨rfl, id, Iff.rfl, id, mapped⟩
  | extended now answer =>
    obtain ⟨task, mapped', stage, drop, -⟩ := beat_keeps options now running answer
    rw [if_neg Bool.false_ne_true]
    exact ⟨task, fun done => stage.trans done, by rw [drop], fun ended => drop.trans ended, by rw [mapped', stage, drop, mapped]⟩
  | ends outcome at' =>
    obtain ⟨task, mapped', drop, -, -, -, -, ends⟩ := settle_keeps options running outcome
    have onward : (settle options running outcome).1.stage ≠ .done := by
      rcases ends with ⟨-, stage, -⟩ | ⟨-, -, stage, -⟩ <;> rw [stage] <;> decide
    rw [if_neg Bool.false_ne_true]
    refine ⟨task, fun done => ?_, by rw [drop], fun ended => drop.trans ended, ?_⟩
    · rw [at'] at done
      cases done
    · rw [mapped', drop, mapped, at']
      exact and_congr_left fun _ => ⟨fun _ => onward, fun _ => by decide⟩
  | answered at' =>
    rw [if_neg Bool.false_ne_true]
    refine ⟨rfl, fun done => ?_, Iff.rfl, id, ?_⟩
    · rw [at'] at done
      cases done
    · rw [at'] at mapped
      exact mapped.trans (and_congr_left fun _ => ⟨(fun _ same => nomatch same), (fun _ same => nomatch same)⟩)
  | deletes at' =>
    exact ⟨rfl, fun _ => rfl, Iff.rfl, id, ⟨(fun same => nomatch same), fun both => absurd rfl both.1⟩⟩
  | nacks at' =>
    rw [if_neg Bool.false_ne_true]
    refine ⟨rfl, id, ⟨(fun same => nomatch same), fun none' => ?_⟩, fun ended => ?_, ?_⟩
    · rw [at'] at none'
      cases none'
    · rw [at'] at ended
      cases ended
    · rw [at'] at mapped
      exact mapped.trans (and_congr_right fun _ => ⟨(fun _ same => nomatch same), (fun _ same => nomatch same)⟩)
  | forgets at' =>
    refine ⟨rfl, id, ⟨(fun same => nomatch same), fun none' => ?_⟩, fun _ => rfl,
      ⟨(fun same => nomatch same), fun both => absurd rfl both.2⟩⟩
    rw [at'] at none'
    cases none'

/-- Only a delivery that is still active deletes its task. -/
theorem TaskStep.active {op : TaskOp} {stepped : RunningTask × List QueueCall × Bool}
    (step : TaskStep options running op stepped) (deletes : stepped.2.2 = true) : running.Active := by
  cases step with
  | idle | beats | extended | ends | answered | nacks => cases deletes
  | deletes at' =>
    left
    rw [at']
    decide
  | forgets at' =>
    right
    rw [at']
    decide

theorem Counted.stepTask (counted : Counted options world) (member : running ∈ world.running) (op : TaskOp) :
    Counted options (world.stepTask options running op) := by
  have step := op.run_steps options running
  refine counted.map (op.move options running) (counted.minted.stepTask options member op) rfl (fun other own => ?_) rfl rfl rfl
  by_cases same : other.task.leaseToken = running.task.leaseToken
  · obtain rfl := counted.minted.same member own same
    have steady := step.steady (counted.mapped other own)
    unfold TaskOp.move
    dsimp only
    rw [if_pos rfl]
    by_cases deleted : (op.run options other).2.2 = true
    · rw [if_pos deleted] at steady
      rw [if_pos ⟨deleted, congrArg LeasedTask.id step.task⟩]
      exact steady
    · rw [if_neg deleted] at steady
      rw [if_neg fun both => deleted both.1]
      exact steady
  · unfold TaskOp.move
    dsimp only
    rw [if_neg same]
    split
    · next deleted =>
        refine ⟨rfl, id, Iff.rfl, id, ⟨(fun same => nomatch same), fun both => ?_⟩⟩
        have alone := counted.alone other own running member (.inl both.1) (step.active deleted.1) deleted.2
        exact absurd (congrArg (fun running => running.task.leaseToken) alone) same
    · exact ⟨rfl, id, Iff.rfl, id, counted.mapped other own⟩

/-- A delivery at its launch. -/
def launched (now : Int) (task : LeasedTask) : RunningTask :=
  ⟨task, true, .handling, .scheduled, now, none, false, false, .none, none⟩

/-- Tasks that are not in flight are launched beside the others. -/
theorem launch_apart (now : Int) (tasks : List LeasedTask) (running : List RunningTask) (distinct : (tasks.map LeasedTask.id).Nodup)
    (apart : ∀ task ∈ tasks, ∀ other ∈ running, other.mapped = true → other.task.id ≠ task.id) :
    tasks.foldl (launch now) running = running ++ tasks.map (launched now) := by
  induction tasks generalizing running with
  | nil => simp
  | cons task rest ih =>
    obtain ⟨new, distinct⟩ := List.nodup_cons.mp distinct
    have kept : deleteTask task.id running = running := by
      unfold deleteTask
      refine (List.map_congr_left fun other own => ?_).trans (List.map_id _)
      split
      · next same =>
          have unmapped : other.mapped = false := by
            by_contra mapped
            exact apart task List.mem_cons_self other own (by simpa using mapped) same
          cases other
          cases unmapped
          rfl
      · rfl
    have one : launch now running task = running ++ [launched now task] := by
      rw [launch, kept]
      rfl
    rw [List.foldl_cons, one, ih _ distinct, List.append_assoc]
    · rfl
    · intro task' listed other own mapped
      rcases List.mem_append.mp own with old | own
      · exact apart task' (List.mem_cons_of_mem _ listed) other old mapped
      · cases List.mem_singleton.mp own
        exact fun same => new (List.mem_map.mpr ⟨task', listed, same.symm⟩)

theorem launched_inProgress (now : Int) (tasks : List LeasedTask) :
    (tasks.map (launched now)).countP RunningTask.inProgress = tasks.length := by
  rw [List.countP_map, List.countP_eq_length]
  exact fun _ _ => rfl

theorem Counted.arrives (counted : Counted options world) {now : Int} {tasks : List LeasedTask} (at' : world.poll = .arriving tasks)
    (runs : world.state = .running) (minted : Minted { world with poll := .looking, running := tasks.foldl (launch now) world.running })
    (distinct : (tasks.map LeasedTask.id).Nodup)
    (apart : ∀ task ∈ tasks, ∀ running ∈ world.running, running.mapped = true → running.task.id ≠ task.id) :
    Counted options { world with poll := .looking, running := tasks.foldl (launch now) world.running } := by
  have none' := counted.early (.inr runs)
  have undropped := counted.undropped (.inl none')
  have slots := counted.slots
  rw [at'] at slots
  rw [launch_apart now tasks world.running distinct apart] at minted ⊢
  have cases' : ∀ running ∈ world.running ++ tasks.map (launched now),
      running ∈ world.running ∨ ∃ task ∈ tasks, running = launched now task := fun running own =>
    (List.mem_append.mp own).imp_right fun new =>
      let ⟨task, listed, same⟩ := List.mem_map.mp new
      ⟨task, listed, same.symm⟩
  have old {running : RunningTask} (own : running ∈ world.running) (active : running.Active) : running.mapped = true := by
    rw [counted.mapped running own, undropped running own]
    exact ⟨active.resolve_right fun dropped => dropped (undropped running own), by decide⟩
  refine ⟨minted, fun running own => ?_, fun one own two own' active active' same => ?_, ?_, counted.early, fun _ running own => ?_,
    .inl none', ?_, ?_, ?_⟩
  · rcases cases' running own with own | ⟨task, -, rfl⟩
    · exact counted.mapped running own
    · exact ⟨fun _ => ⟨(fun same => nomatch same), (fun same => nomatch same)⟩, fun _ => rfl⟩
  · rcases cases' one own with own | ⟨task, listed, rfl⟩
    · rcases cases' two own' with own' | ⟨task', listed', rfl⟩
      · exact counted.alone one own two own' active active' same
      · exact absurd same (apart task' listed' one own (old own active))
    · rcases cases' two own' with own' | ⟨task', listed', rfl⟩
      · exact absurd same.symm (apart task listed two own' (old own' active'))
      · rw [List.inj_on_of_nodup_map distinct listed listed' same]
  · unfold WorkerWorld.inProgress at slots ⊢
    rw [List.countP_append, launched_inProgress]
    exact slots
  · rcases cases' running own with own | ⟨task, -, rfl⟩
    · exact undropped running own
    · rfl
  · exact fun _ at' => absurd (none'.symm.trans at') (fun same => nomatch same)
  · exact fun _ at' => absurd (none'.symm.trans at') (fun same => nomatch same)
  · exact fun at' => absurd (none'.symm.trans at') (fun same => nomatch same)

/-- Where a poll looks, its free slots are free. -/
theorem Counted.looks (counted : Counted options world) (runs : world.state = .running) :
    world.inProgress + (options.concurrency - world.activeCount) ≤ options.concurrency := by
  rw [counted.activeCount (counted.undropped (.inl (counted.early (.inr runs))))]
  have slots := counted.slots
  omega

theorem Counted.unasked (counted : Counted options world) : world.inProgress + 0 ≤ options.concurrency :=
  Nat.le_trans (Nat.add_le_add_left (Nat.zero_le _) _) counted.slots

/-- The stop goes on with the tasks that are in flight. -/
theorem Counted.joins (counted : Counted options world) (at' : world.shutdown = .joining)
    (resting : world.poll = .idle ∨ world.poll = .ended) :
    Counted options { world with
      shutdown := .waiting ((world.running.filter RunningTask.mapped).map fun running => running.task.leaseToken) } := by
  have undropped := counted.undropped (.inr (.inl at'))
  have stops : world.state = .idle ∨ world.state = .running → False := fun early =>
    absurd (at'.symm.trans (counted.early early)) (fun same => nomatch same)
  refine ⟨counted.minted.frame rfl (Nat.le_refl _) fun _ same => .inl same, counted.mapped, counted.alone, counted.slots,
    fun early => (stops early).elim, fun _ => undropped, .inr (.inr resting), ?_, (fun _ same => nomatch same),
    (fun same => nomatch same)⟩
  rintro tokens ⟨⟩
  constructor
  · intro running own onward
    refine List.mem_map.mpr ⟨running, List.mem_filter.mpr ⟨own, ?_⟩, rfl⟩
    rw [counted.mapped running own, undropped running own]
    exact ⟨onward, by decide⟩
  · have active : ∀ running ∈ world.running,
        running.task.leaseToken ∈ (world.running.filter RunningTask.mapped).map (fun running => running.task.leaseToken) →
          running.Active := by
      intro running own listed
      obtain ⟨other, kept, same⟩ := List.mem_map.mp listed
      obtain ⟨own', mapped⟩ := List.mem_filter.mp kept
      obtain rfl := counted.minted.same own own' same
      exact .inl ((counted.mapped other own').mp mapped).1
    exact fun one own two own' listed listed' => counted.alone one own two own' (active one own listed) (active two own' listed')

/-- A timeout drops every task that is still in progress. -/
theorem Counted.timesOut (counted : Counted options world) {tokens : List LeaseToken} (at' : world.shutdown = .waiting tokens)
    (minted : Minted ((WorkerOp.timesOut).run options world)) : Counted options ((WorkerOp.timesOut).run options world) := by
  have undropped := counted.undropped (.inr (.inr ⟨tokens, at'⟩))
  obtain ⟨all, apart⟩ := counted.snapshot tokens at'
  revert minted
  simp only [WorkerOp.run, at']
  intro minted
  generalize dropping : ((world.running.filter fun other => tokens.contains other.task.leaseToken &&
    world.running.any fun mapped => mapped.mapped && mapped.task.id = other.task.id).map fun other => other.task.leaseToken) =
      stragglers at minted ⊢
  have listed : ∀ running ∈ world.running, running.stage ≠ .done → running.task.leaseToken ∈ stragglers := by
    intro running own onward
    rw [← dropping]
    refine List.mem_map.mpr ⟨running, List.mem_filter.mpr ⟨own, ?_⟩, rfl⟩
    have mapped : running.mapped = true := by
      rw [counted.mapped running own, undropped running own]
      exact ⟨onward, by decide⟩
    simp only [Bool.and_eq_true, List.contains_iff_mem, List.any_eq_true, decide_eq_true_eq]
    exact ⟨all running own onward, running, own, mapped, rfl⟩
  have within : ∀ running ∈ world.running, running.task.leaseToken ∈ stragglers → running.task.leaseToken ∈ tokens := by
    intro running own listed'
    rw [← dropping] at listed'
    obtain ⟨other, kept, same⟩ := List.mem_map.mp listed'
    have kept' := (List.mem_filter.mp kept).2
    rw [Bool.and_eq_true, List.contains_iff_mem] at kept'
    exact same ▸ kept'.1
  have moves : ∀ running : RunningTask,
      (if stragglers.contains running.task.leaseToken then running.startDrop else running).task = running.task ∧
      (if stragglers.contains running.task.leaseToken then running.startDrop else running).stage = running.stage ∧
      (if stragglers.contains running.task.leaseToken then running.startDrop else running).mapped = running.mapped := by
    intro running
    split <;> exact ⟨rfl, rfl, rfl⟩
  refine ⟨minted, fun running own => ?_, fun one own two own' active active' same => ?_, ?_, fun early => ?_, ?_, ?_,
    (fun _ same => nomatch same), ?_, (fun same => nomatch same)⟩
  · obtain ⟨before, own', rfl⟩ := List.mem_map.mp own
    rw [(moves before).2.2, (moves before).2.1, counted.mapped before own', undropped before own']
    refine and_congr_right fun _ => ⟨fun _ => ?_, fun _ => by decide⟩
    split
    · exact fun same => nomatch same
    · rw [undropped before own']
      exact fun same => nomatch same
  · obtain ⟨before, member, rfl⟩ := List.mem_map.mp own
    obtain ⟨before', member', rfl⟩ := List.mem_map.mp own'
    rw [(moves before).1, (moves before').1] at same
    -- what is active now is a straggler, and those are apart
    have straggles : ∀ running ∈ world.running,
        (if stragglers.contains running.task.leaseToken then running.startDrop else running).Active →
          running.task.leaseToken ∈ tokens := by
      intro running own active
      by_cases chosen : running.task.leaseToken ∈ stragglers
      · exact within running own chosen
      · rw [if_neg (by simpa using chosen)] at active
        exact all running own (active.resolve_right fun dropped => dropped (undropped running own))
    rw [apart before member before' member' (straggles before member active) (straggles before' member' active') same]
  · have slots := counted.slots
    unfold WorkerWorld.inProgress at slots ⊢
    dsimp only
    rw [List.countP_map]
    have same : (RunningTask.inProgress ∘ fun other => if stragglers.contains other.task.leaseToken then other.startDrop else other) =
        RunningTask.inProgress := by
      funext running
      rw [Function.comp_apply, RunningTask.inProgress, RunningTask.inProgress, (moves running).2.1]
    rw [same]
    exact slots
  · exact absurd (at'.symm.trans (counted.early early)) (fun same => nomatch same)
  · rintro (same | same | ⟨_, same⟩) <;> cases same
  · rcases counted.rests with same | same | resting
    · cases at'.symm.trans same
    · cases at'.symm.trans same
    · exact .inr (.inr resting)
  · rintro _ ⟨⟩ running own onward
    obtain ⟨before, own', rfl⟩ := List.mem_map.mp own
    rw [(moves before).1]
    rw [(moves before).2.1] at onward
    exact listed before own' onward

/-- The stop ends when each task in progress is done or dropped. -/
theorem Counted.stopped (counted : Counted options world) (late : ¬ (world.shutdown = .none ∨ world.shutdown = .joining))
    (every : ∀ running ∈ world.running, running.stage = .done ∨ running.drop = .ended) :
    Counted options { world with shutdown := .ended, state := .stopped } := by
  refine ⟨counted.minted.frame rfl (Nat.le_refl _) fun _ same => .inl same, counted.mapped, counted.alone, counted.slots, ?_, ?_,
    ?_, (fun _ same => nomatch same), (fun _ same => nomatch same), fun _ => every⟩
  · rintro (same | same) <;> cases same
  · rintro (same | same | ⟨_, same⟩) <;> cases same
  · rcases counted.rests with same | same | resting
    · exact absurd (.inl same) late
    · exact absurd (.inr same) late
    · exact .inr (.inr resting)

/-- Every operation keeps the count, while no task is delivered that is still in flight. -/
theorem Counted.step (counted : Counted options world) (op : WorkerOp) (apart : Apart op world) :
    Counted options (op.run options world) := by
  have minted := counted.minted.step options op
  have slots := counted.slots
  revert minted
  cases op with
  | start =>
    simp only [WorkerOp.run]
    split <;> intro minted
    · next idle =>
        exact counted.frame minted rfl rfl (fun _ => .inl idle) counted.unasked (.inl (counted.early (.inl idle)))
    · exact counted
  | looks =>
    simp only [WorkerOp.run]
    split
    · next at' =>
        have awake : ¬ (world.poll = .idle ∨ world.poll = .ended) := by
          rw [at']
          exact fun either => either.elim (fun same => nomatch same) fun same => nomatch same
        split <;> intro minted
        · next runs =>
            refine counted.frame minted rfl rfl (fun same => same) ?_ (.inr fun resting => absurd resting awake)
            dsimp only
            split
            · exact counted.unasked
            · exact counted.looks runs
        · exact counted.frame minted rfl rfl (fun same => same) counted.unasked (.inr fun _ => .inr rfl)
    · exact fun _ => counted
  | budgets budget =>
    simp only [WorkerOp.run]
    split <;> intro minted
    · next free at' =>
        rw [at'] at slots
        refine counted.frame minted rfl rfl (fun same => same) ?_ (.inr fun resting => ?_)
        · have fewer : (budget.elim free fun budget => (max 0 (min (free : Int) budget)).toNat) ≤ free := by
            cases budget with
            | none => exact Nat.le_refl _
            | some budget =>
              dsimp only [Option.elim_some]
              omega
          dsimp only
          split
          · exact counted.unasked
          · exact Nat.le_trans (Nat.add_le_add_left fewer _) slots
        · rw [at'] at resting
          exact resting.elim (fun same => nomatch same) fun same => nomatch same
    · exact counted
  | leases tasks =>
    simp only [WorkerOp.run]
    split
    · next limit at' =>
        rw [at'] at slots
        split <;> intro minted
        · next few =>
            refine counted.frame minted rfl rfl (fun same => same) ?_ (.inr fun resting => ?_)
            · have length : (leaseTasks world.nextToken tasks).length = tasks.length := by
                rw [leaseTasks, List.length_map, List.length_zipIdx]
              dsimp only [PollStage.asked] at slots ⊢
              rw [length]
              exact Nat.le_trans (Nat.add_le_add_left few _) slots
            · rw [at'] at resting
              exact resting.elim (fun same => nomatch same) fun same => nomatch same
        · exact counted
    · exact fun _ => counted
  | dequeueFails =>
    simp only [WorkerOp.run]
    split <;> intro minted
    · next at' =>
        refine counted.frame minted rfl rfl (fun same => same) counted.unasked (.inr fun resting => ?_)
        rw [at'] at resting
        exact resting.elim (fun same => nomatch same) fun same => nomatch same
    · next at' =>
        refine counted.frame minted rfl rfl (fun same => same) counted.unasked (.inr fun resting => ?_)
        rw [at'] at resting
        exact resting.elim (fun same => nomatch same) fun same => nomatch same
    · exact counted
  | arrives now =>
    simp only [WorkerOp.run]
    split
    · next tasks at' =>
        unfold Apart at apart
        rw [at'] at apart
        have awake : ¬ (world.poll = .idle ∨ world.poll = .ended) := by
          rw [at']
          exact fun either => either.elim (fun same => nomatch same) fun same => nomatch same
        split
        · exact fun minted => counted.frame minted rfl rfl (fun same => same) counted.unasked (.inr fun resting => absurd resting awake)
        · next runs =>
            rw [not_not] at runs
            split <;> intro minted
            · exact counted.frame minted rfl rfl (fun same => same) counted.unasked (.inr fun resting => absurd resting awake)
            · exact counted.arrives at' runs minted (apart runs).1 (apart runs).2
    · exact fun _ => counted
  | releases =>
    simp only [WorkerOp.run]
    split <;> intro minted
    · exact counted.frame minted rfl rfl (fun same => same) counted.unasked (.inr fun _ => .inr rfl)
    · next at' =>
        refine counted.frame minted rfl rfl (fun same => same) counted.unasked (.inr fun resting => ?_)
        rw [at'] at resting
        exact resting.elim (fun same => nomatch same) fun same => nomatch same
    · exact counted
  | wakes => exact fun _ => counted.wake
  | task leaseToken op =>
    intro _
    cases found : world.find? leaseToken with
    | none =>
      simp only [WorkerOp.run, found]
      exact counted
    | some running =>
      have stepped := counted.stepTask (find?_some found).1 op
      rcases task_run options found op with same | same
      · exact same ▸ stepped
      · exact same ▸ stepped.wake
  | stops =>
    simp only [WorkerOp.run]
    split <;> intro minted
    · next at' =>
        have undropped := counted.undropped (.inl at')
        have stopping : Counted options { world with state := .stopping, shutdown := .joining } := by
          refine ⟨counted.minted.frame rfl (Nat.le_refl _) fun _ at' => .inl at', counted.mapped, counted.alone,
            counted.slots, ?_, fun _ => undropped, .inr (.inl rfl), ?_, ?_, ?_⟩
          · exact fun early => early.elim (fun same => nomatch same) fun same => nomatch same
          · exact fun _ same => nomatch same
          · exact fun _ same => nomatch same
          · exact fun same => nomatch same
        exact stopping.wake
    · exact counted
  | joins =>
    simp only [WorkerOp.run]
    split
    · next at' resting => exact fun _ => counted.joins at' (.inl resting)
    · next at' resting => exact fun _ => counted.joins at' (.inr resting)
    · exact fun _ => counted
  | finishes =>
    simp only [WorkerOp.run]
    split
    · next tokens at' =>
        have late : ¬ (world.shutdown = .none ∨ world.shutdown = .joining) := by
          rw [at']
          exact fun either => either.elim (fun same => nomatch same) fun same => nomatch same
        split
        · next all =>
            refine fun _ => counted.stopped late fun running own => .inl ?_
            by_contra onward
            have listed := (counted.snapshot tokens at').1 running own onward
            have done := List.all_eq_true.mp all running own
            simp [listed, onward] at done
        · exact fun _ => counted
    · exact fun _ => counted
  | timesOut =>
    intro minted
    cases at' : world.shutdown with
    | waiting tokens => exact counted.timesOut at' minted
    | none | joining | dropping tokens | ended =>
      simp only [WorkerOp.run, at']
      exact counted
  | stopped =>
    simp only [WorkerOp.run]
    split
    · next tokens at' =>
        have late : ¬ (world.shutdown = .none ∨ world.shutdown = .joining) := by
          rw [at']
          exact fun either => either.elim (fun same => nomatch same) fun same => nomatch same
        split
        · next all =>
            refine fun _ => counted.stopped late fun running own => ?_
            by_cases done : running.stage = .done
            · exact .inl done
            · have listed := counted.stragglers tokens at' running own done
              have dropped := List.all_eq_true.mp all running own
              right
              simpa [listed] using dropped
        · exact fun _ => counted
    · exact fun _ => counted
  | handles call =>
    simp only [WorkerOp.run]
    split <;> intro minted
    · exact counted.frame minted rfl rfl (fun same => same) slots (.inr fun resting => resting)
    · exact counted
  | relets id taken =>
    intro minted
    exact counted.frame minted rfl rfl (fun same => same) slots (.inr fun resting => resting)

/-- The run lemma. -/
theorem WorkerRun.counted (run : WorkerRun options allowed start world) (fresh : start.Fresh)
    (apart : ∀ op world, allowed op world → Apart op world) : Counted options world := by
  induction run with
  | refl =>
    obtain ⟨-, poll, none', shutdown, -⟩ := fresh
    have absent {P : RunningTask → Prop} : ∀ running ∈ start.running, P running := by
      rw [none']
      exact fun _ own => absurd own List.not_mem_nil
    refine ⟨⟨by rw [none']; exact List.nodup_nil, absent, fun _ at' => ?_⟩, absent, absent, ?_, fun _ => shutdown,
      fun _ => absent, .inl shutdown, fun _ at' => ?_, fun _ at' => ?_, fun at' => ?_⟩
    · cases poll.symm.trans at'
    · rw [WorkerWorld.inProgress, none', poll]
      exact Nat.zero_le _
    · cases shutdown.symm.trans at'
    · cases shutdown.symm.trans at'
    · cases shutdown.symm.trans at'
  | step run op met ih => exact ih.step op (apart op _ met)

/-- The deliveries in progress are those whose handler runs and those that are being settled. -/
theorem inProgress_eq (world : WorkerWorld) : world.inProgress = world.handling + world.settling := by
  unfold WorkerWorld.inProgress WorkerWorld.handling WorkerWorld.settling
  induction world.running with
  | nil => rfl
  | cons running rest ih =>
    obtain ⟨task, mapped, stage, heartbeat, confirmed, aborted, finished, dropped, drop, ending⟩ := running
    simp only [List.countP_cons, ih, RunningTask.inProgress]
    cases stage <;> simp <;> omega

/-- In every run in which no poll starts a task that is still in flight: the handlers in progress, and
even the deliveries in progress, keep to the concurrency; until a shutdown drops tasks `activeCount` counts
the deliveries in progress; and when the stop is over, each delivery is done or was dropped. -/
theorem worker_concurrency (run : WorkerRun options Apart start world) (fresh : start.Fresh) :
    world.handling + world.settling ≤ options.concurrency ∧
    ((∀ running ∈ world.running, running.drop = .none) → world.activeCount = world.handling + world.settling) ∧
    (world.shutdown = .ended → ∀ running ∈ world.running, running.stage = .done ∨ running.drop = .ended) := by
  have counted := run.counted fresh fun _ _ met => met
  refine ⟨?_, fun undropped => ?_, counted.ended⟩
  · rw [← inProgress_eq]
    exact Nat.le_trans (Nat.le_add_right _ _) counted.slots
  · rw [counted.activeCount undropped, inProgress_eq]

/-- A worker before its start, with an empty queue. -/
def freshWorker : WorkerWorld := ⟨.idle, .idle, [], .none, fun _ => none, 0, [], [], []⟩

theorem freshWorker_fresh : freshWorker.Fresh :=
  ⟨rfl, rfl, rfl, rfl, (fun _ _ same => nomatch same), rfl, rfl, rfl⟩

/-- One poll starts two tasks, and the handler of the first one ends. -/
def twoDeliveries : List WorkerOp :=
  [.start, .looks, .budgets none, .leases [("a", 1), ("b", 1)], .arrives 0, .task 0 (.ends .resolved)]

theorem twoDeliveries_run : WorkerRun ⟨2, 30000, 0, none, 10⟩ Apart freshWorker
    (twoDeliveries.foldl (WorkerOp.run ⟨2, 30000, 0, none, 10⟩) freshWorker) := by
  have looking := (((@WorkerRun.refl ⟨2, 30000, 0, none, 10⟩ Apart freshWorker).step .start trivial).step .looks trivial).step
    (.budgets none) trivial
  refine ((looking.step (.leases [("a", 1), ("b", 1)]) trivial).step (.arrives 0) ?_).step (.task 0 (.ends .resolved)) trivial
  exact fun _ => ⟨by decide, fun _ _ _ own => absurd own List.not_mem_nil⟩

theorem worker_concurrency_two :
    let world := twoDeliveries.foldl (WorkerOp.run ⟨2, 30000, 0, none, 10⟩) freshWorker
    world.handling = 1 ∧ world.settling = 1 ∧ world.handling + world.settling ≤ 2 ∧
      world.activeCount = world.handling + world.settling := by
  have counts := worker_concurrency twoDeliveries_run freshWorker_fresh
  exact ⟨by decide, by decide, counts.1, counts.2.1 (by decide)⟩

theorem WorkerRun.all (options : WorkerOptions) (start : WorkerWorld) (ops : List WorkerOp) :
    WorkerRun options (fun _ _ => True) start (ops.foldl (WorkerOp.run options) start) := by
  suffices onward : ∀ world, WorkerRun options (fun _ _ => True) start world →
      WorkerRun options (fun _ _ => True) start (ops.foldl (WorkerOp.run options) world) from onward start .refl
  induction ops with
  | nil => exact fun _ run => run
  | cons op rest ih => exact fun _ run => ih _ (run.step op trivial)

/-- A delivery counts as active while its acknowledgement is awaited. When the lease of a running task expires, and the next
poll gets the task again, three handlers run with a concurrency of two while two tasks count as active, and a stop ends
while one of them still runs. -/
theorem worker_redelivers :
    (∃ world, WorkerRun ⟨2, 30000, 0, none, 10⟩ Apart freshWorker world ∧ world.handling = 1 ∧ world.activeCount = 2 ∧
      ∀ running ∈ world.running, running.drop = .none) ∧
    (∃ world, WorkerRun ⟨2, 30000, 0, none, 10⟩ (fun _ _ => True) freshWorker world ∧ world.handling = 3 ∧
      world.activeCount = 2 ∧ ∀ running ∈ world.running, running.drop = .none) ∧
    ∃ world, WorkerRun ⟨2, 30000, 0, none, 10⟩ (fun _ _ => True) freshWorker world ∧ world.shutdown = .ended ∧
      ∃ running ∈ world.running, running.stage = .handling ∧ running.drop = .none := by
  refine ⟨⟨_, twoDeliveries_run, by decide, by decide, by decide⟩, ?_, ?_⟩
  · refine ⟨_, WorkerRun.all _ _ [.start, .looks, .budgets none, .leases [("a", 1)], .arrives 0, .looks, .budgets none,
      .leases [("a", 2)], .arrives 0, .looks, .budgets none, .leases [("b", 1)], .arrives 0], ?_, ?_, ?_⟩ <;> decide
  · refine ⟨_, WorkerRun.all _ _ [.start, .looks, .budgets none, .leases [("a", 1)], .arrives 0, .looks, .budgets none,
      .leases [("a", 2)], .arrives 0, .stops, .looks, .joins, .task 1 (.ends .resolved), .task 1 .answered, .task 1 .deletes,
      .finishes], rfl, _, List.mem_cons_self, rfl, rfl⟩

end Counting

end DurableExecution.Worker

import DurableExecution.Worker.Concurrency

/-
This file follows each delivery of a worker to the calls of the queue that settle it. It shows that
a delivery is settled at most once, by the outcome of its handler or by the drop of a shutdown.
-/

namespace DurableExecution.Worker

variable {options : WorkerOptions} {allowed : WorkerOp → WorkerWorld → Prop} {world start : WorkerWorld}
  {running changed : RunningTask} {leaseToken : LeaseToken}

section Deliveries

/-- The call that the end of a handler makes. -/
def settleCalls (options : WorkerOptions) (running : RunningTask) : List QueueCall :=
  match running.ending with
  | some ⟨outcome, false, false⟩ => [running.call (settlementFor options running.task outcome)]
  | _ => []

/-- The call that a drop makes. -/
def dropCalls (running : RunningTask) : List QueueCall :=
  if running.drop = .nacking ∨ running.drop = .ended then [running.call (.nack 0)] else []

/-- The flags of a delivery agree with what happened to it. -/
structure Honest (running : RunningTask) : Prop where
  dropped : running.dropped = true ↔ running.drop ≠ .none
  aborted : running.dropped = true → running.aborted.isSome = true
  ended : running.ending = none ↔ running.stage = .handling
  finished : running.ending.isSome = true → running.finished = true
  lost : running.aborted = some .leaseLost → ∀ ending, running.ending = some ending → ending.aborted = true

/-- A step of a delivery keeps its flags honest, and it makes the calls that it owes. -/
theorem TaskStep.honest {op : TaskOp} {stepped : RunningTask × List QueueCall × Bool}
    (step : TaskStep options running op stepped) (honest : Honest running) :
    Honest stepped.1 ∧ settleCalls options stepped.1 ++ dropCalls stepped.1 =
      settleCalls options running ++ dropCalls running ++ stepped.2.1 := by
  cases step with
  | idle | beats => exact ⟨⟨honest.dropped, honest.aborted, honest.ended, honest.finished, honest.lost⟩, (List.append_nil _).symm⟩
  | extended now answer =>
    obtain ⟨task, -, stage, drop, dropped, ending, flags⟩ := beat_keeps options now running answer
    dsimp only
    refine ⟨⟨?_, ?_, ?_, ?_, ?_⟩, ?_⟩
    · rw [dropped, drop]
      exact honest.dropped
    · rw [dropped]
      intro fell
      rcases flags with ⟨-, same⟩ | ⟨-, -, same⟩
      · rw [same]
        exact honest.aborted fell
      · rw [same, Option.isSome_or]
        simp
    · rw [ending, stage]
      exact honest.ended
    · rw [ending]
      intro past
      rcases flags with ⟨same, -⟩ | ⟨-, set', -⟩
      · rw [same]
        exact honest.finished past
      · exact set'
    · rw [ending]
      intro lost found same
      rcases flags with ⟨-, kept⟩ | ⟨still, -, -⟩
      · exact honest.lost (kept ▸ lost) found same
      · have past := honest.finished (by rw [same]; rfl)
        rw [still] at past
        cases past
    · rw [List.append_nil]
      unfold settleCalls dropCalls RunningTask.call
      rw [ending, drop, task]
  | ends outcome at' =>
    obtain ⟨task, -, drop, dropped, aborted, finished, ending, calls⟩ := settle_keeps options running outcome
    have unended : running.ending = none := honest.ended.mpr at'
    dsimp only
    refine ⟨⟨?_, ?_, ?_, fun _ => finished, ?_⟩, ?_⟩
    · rw [dropped, drop]
      exact honest.dropped
    · rw [dropped, aborted]
      exact honest.aborted
    · rw [ending]
      constructor
      · exact fun none' => nomatch none'
      · intro same
        rcases calls with ⟨-, stage, -⟩ | ⟨-, -, stage, -⟩ <;> rw [stage] at same <;> cases same
    · rw [aborted, ending]
      rintro lost found ⟨⟩
      rw [lost]
      rfl
    · rcases calls with ⟨either, -, none'⟩ | ⟨undropped, unaborted, -, one⟩
      · rw [none', List.append_nil]
        unfold settleCalls dropCalls RunningTask.call
        rw [ending, drop, task, unended]
        congr 1
        rcases either with fell | fell <;> rw [fell]
        cases running.aborted.isSome <;> rfl
      · rw [one]
        have undropped' : running.drop = .none := by
          by_contra fell
          rw [honest.dropped.mpr fell] at undropped
          cases undropped
        unfold settleCalls dropCalls RunningTask.call
        rw [ending, drop, task, unended, undropped, unaborted, undropped']
        rfl
  | answered at' =>
    refine ⟨⟨honest.dropped, honest.aborted, ⟨fun none' => ?_, fun same => nomatch same⟩, honest.finished, honest.lost⟩,
      (List.append_nil _).symm⟩
    have same := honest.ended.mp none'
    rw [at'] at same
    cases same
  | deletes at' =>
    refine ⟨⟨honest.dropped, honest.aborted, ⟨fun none' => ?_, fun same => nomatch same⟩, honest.finished, honest.lost⟩,
      (List.append_nil _).symm⟩
    have same := honest.ended.mp none'
    rw [at'] at same
    cases same
  | nacks at' =>
    have fell : running.dropped = true := honest.dropped.mpr (by rw [at']; exact fun same => nomatch same)
    refine ⟨⟨⟨(fun _ same => nomatch same), fun _ => fell⟩, honest.aborted, honest.ended, honest.finished, honest.lost⟩, ?_⟩
    have before : dropCalls running = [] := by
      unfold dropCalls
      rw [at']
      rfl
    rw [before, List.append_nil]
    rfl
  | forgets at' =>
    have fell : running.dropped = true := honest.dropped.mpr (by rw [at']; exact fun same => nomatch same)
    refine ⟨⟨⟨(fun _ same => nomatch same), fun _ => fell⟩, honest.aborted, honest.ended, honest.finished, honest.lost⟩, ?_⟩
    have before : dropCalls running = [running.call (.nack 0)] := by
      unfold dropCalls
      rw [at']
      rfl
    rw [before, List.append_nil]
    rfl

/-- A step does not start a drop. -/
theorem TaskStep.undropped {op : TaskOp} {stepped : RunningTask × List QueueCall × Bool}
    (step : TaskStep options running op stepped) (undropped : running.drop = .none) : stepped.1.drop = .none := by
  cases step with
  | idle | beats | answered | deletes => exact undropped
  | extended now answer => exact (beat_keeps options now running answer).2.2.2.1.trans undropped
  | ends outcome => exact (settle_keeps options running outcome).2.2.1.trans undropped
  | nacks at' => cases at'.symm.trans undropped
  | forgets at' => cases at'.symm.trans undropped

/-- A step makes calls for its own delivery only. -/
theorem TaskStep.calls {op : TaskOp} {stepped : RunningTask × List QueueCall × Bool}
    (step : TaskStep options running op stepped) {call : QueueCall} (made : call ∈ stepped.2.1) :
    call.leaseToken = running.task.leaseToken := by
  cases step with
  | idle | beats | extended | answered | deletes | forgets => cases made
  | ends outcome =>
    obtain ⟨-, -, -, -, -, -, -, calls⟩ := settle_keeps options running outcome
    dsimp only at made
    rcases calls with ⟨-, -, none'⟩ | ⟨-, -, -, one⟩
    · rw [none'] at made
      cases made
    · rw [one] at made
      cases List.mem_singleton.mp made
      rfl
  | nacks =>
    cases List.mem_singleton.mp made
    rfl

/-- A drop aborts the signal before it waits. -/
theorem Honest.startDrop (honest : Honest running) (undropped : running.drop = .none) :
    Honest running.startDrop ∧ settleCalls options running.startDrop ++ dropCalls running.startDrop =
      settleCalls options running ++ dropCalls running := by
  refine ⟨⟨⟨(fun _ same => nomatch same), fun _ => rfl⟩, fun _ => ?_, honest.ended, fun _ => rfl, fun lost ending same => ?_⟩, ?_⟩
  · simp [RunningTask.startDrop]
  · refine honest.lost ?_ ending same
    change running.aborted.or (some .shutdownTimeout) = some .leaseLost at lost
    cases aborted : running.aborted with
    | none =>
      rw [aborted] at lost
      cases lost
    | some reason =>
      rw [aborted] at lost
      exact lost
  · unfold dropCalls
    rw [undropped]
    rfl

end Deliveries

section Worlds

/-- The call that gives a task back that is not started. -/
def LeasedTask.release (task : LeasedTask) : QueueCall := ⟨task.id, task.leaseToken, .nack 0⟩

/-- The calls with a lease token. -/
def WorkerWorld.callsOf (world : WorkerWorld) (leaseToken : LeaseToken) : List QueueCall :=
  world.calls.filter fun call => call.leaseToken = leaseToken

/-- What holds in every run: each delivery has made the calls that it owes, each refused task has been given
back or is next, and a call that took effect has ended the lease. -/
structure Settling (options : WorkerOptions) (world : WorkerWorld) : Prop where
  minted : Minted world
  honest : ∀ running ∈ world.running, Honest running
  made : ∀ running ∈ world.running, world.callsOf running.task.leaseToken = settleCalls options running ++ dropCalls running
  origin : ∀ call ∈ world.calls, (∃ running ∈ world.running, call.leaseToken = running.task.leaseToken) ∨
    ∃ task ∈ world.refused, call = task.release
  early : world.state = .idle → world.poll = .idle
  undropped : world.shutdown = .none ∨ world.shutdown = .joining ∨ (∃ tokens, world.shutdown = .waiting tokens) →
    ∀ running ∈ world.running, running.drop = .none
  refused : (world.refused.map LeasedTask.leaseToken).Nodup ∧ ∀ task ∈ world.refused, task.leaseToken < world.nextToken ∧
    ∀ running ∈ world.running, running.task.leaseToken ≠ task.leaseToken
  closed : world.refused ≠ [] → (∃ rest, world.poll = .releasing rest) ∨ world.poll = .ended
  released : ∀ task ∈ world.refused, task.release ∈ world.calls ∨ ∃ rest, world.poll = .releasing rest ∧ task ∈ rest
  releasing : ∀ rest, world.poll = .releasing rest → ∀ task ∈ rest, task ∈ world.refused
  effects : (world.effects.map QueueCall.leaseToken).Nodup ∧ ∀ call ∈ world.effects, call ∈ world.calls ∧
    world.leases call.id ≠ some call.leaseToken

/-- Steps that change neither the deliveries nor the calls. -/
theorem Settling.frame (settling : Settling options world) {later : WorkerWorld} (minted : Minted later)
    (running : later.running = world.running) (calls : later.calls = world.calls) (refused : later.refused = world.refused)
    (effects : later.effects = world.effects) (next : world.nextToken ≤ later.nextToken)
    (shutdown : later.shutdown = .none ∨ later.shutdown = .joining ∨ (∃ tokens, later.shutdown = .waiting tokens) →
      world.shutdown = .none ∨ world.shutdown = .joining ∨ ∃ tokens, world.shutdown = .waiting tokens)
    (state : later.state = .idle → later.poll = .idle) (leases : ∀ call ∈ world.effects, later.leases call.id ≠ some call.leaseToken)
    (poll : later.poll = world.poll ∨ world.refused = [] ∧ ∀ rest, later.poll ≠ .releasing rest) : Settling options later where
  minted := minted
  honest := running ▸ settling.honest
  made := by
    unfold WorkerWorld.callsOf
    rw [running, calls]
    exact settling.made
  origin := by
    rw [running, calls, refused]
    exact settling.origin
  early := state
  undropped := by
    rw [running]
    exact fun before => settling.undropped (shutdown before)
  refused := by
    rw [running, refused]
    exact ⟨settling.refused.1, fun task listed =>
      ⟨Nat.lt_of_lt_of_le (settling.refused.2 task listed).1 next, (settling.refused.2 task listed).2⟩⟩
  closed := by
    rw [refused]
    intro some'
    rcases poll with same | ⟨none', -⟩
    · rw [same]
      exact settling.closed some'
    · exact absurd none' some'
  released := by
    rw [refused, calls]
    intro task listed
    rcases poll with same | ⟨none', -⟩
    · rw [same]
      exact settling.released task listed
    · rw [none'] at listed
      cases listed
  releasing := by
    rw [refused]
    intro rest at'
    rcases poll with same | ⟨-, awake⟩
    · exact settling.releasing rest (same ▸ at')
    · exact absurd at' (awake rest)
  effects := by
    rw [effects, calls]
    exact ⟨settling.effects.1, fun call listed => ⟨(settling.effects.2 call listed).1, leases call listed⟩⟩

theorem Settling.unrefused (settling : Settling options world) (onward : ∀ rest, world.poll ≠ .releasing rest)
    (open' : world.poll ≠ .ended) : world.refused = [] := by
  by_contra some'
  rcases settling.closed some' with ⟨rest, same⟩ | same
  · exact onward rest same
  · exact open' same

/-- A poll loop that is on its way. -/
def PollStage.awake : PollStage → Bool
  | .idle | .releasing _ | .ended => false
  | _ => true

theorem Settling.awake (settling : Settling options world) (onward : world.poll.awake = true) :
    world.refused = [] ∧ world.state ≠ .idle := by
  constructor
  · by_contra some'
    rcases settling.closed some' with ⟨rest, same⟩ | same <;> rw [same] at onward <;> cases onward
  · intro idle
    rw [settling.early idle] at onward
    cases onward

theorem Settling.leases (settling : Settling options world) : ∀ call ∈ world.effects, world.leases call.id ≠ some call.leaseToken :=
  fun call listed => (settling.effects.2 call listed).2

theorem Settling.wake (settling : Settling options world) : Settling options world.wake := by
  have minted := settling.minted.wake
  unfold WorkerWorld.wake at minted ⊢
  split at minted
  · next at' =>
      obtain ⟨unrefused, awake⟩ := settling.awake (by rw [at']; rfl)
      exact settling.frame minted rfl rfl rfl rfl (Nat.le_refl _) (fun before => before) (fun early => absurd early awake)
        settling.leases (.inr ⟨unrefused, fun _ same => nomatch same⟩)
  · exact settling

/-- Steps of the running tasks in place, with the calls that they make. -/
theorem Settling.map (settling : Settling options world) {later : WorkerWorld} (move : RunningTask → RunningTask) (made : List QueueCall)
    (minted : Minted later) (moved : later.running = world.running.map move) (calls : later.calls = world.calls ++ made)
    (task : ∀ running ∈ world.running, (move running).task = running.task) (honest : ∀ running ∈ world.running, Honest (move running))
    (owes : ∀ running ∈ world.running, settleCalls options (move running) ++ dropCalls (move running) =
      settleCalls options running ++ dropCalls running ++ made.filter fun call => call.leaseToken = running.task.leaseToken)
    (own : ∀ call ∈ made, ∃ running ∈ world.running, call.leaseToken = running.task.leaseToken)
    (undropped : later.shutdown = .none ∨ later.shutdown = .joining ∨ (∃ tokens, later.shutdown = .waiting tokens) →
      ∀ running ∈ world.running, (move running).drop = .none)
    (state : later.state = world.state) (poll : later.poll = world.poll) (refused : later.refused = world.refused)
    (effects : later.effects = world.effects) (leases : later.leases = world.leases) (next : later.nextToken = world.nextToken) :
    Settling options later where
  minted := minted
  honest := by
    rw [moved]
    intro running listed
    obtain ⟨before, listed', rfl⟩ := List.mem_map.mp listed
    exact honest before listed'
  made := by
    rw [moved]
    intro running listed
    obtain ⟨before, listed', rfl⟩ := List.mem_map.mp listed
    have kept := settling.made before listed'
    unfold WorkerWorld.callsOf at kept ⊢
    rw [task before listed', calls, List.filter_append, kept, owes before listed']
  origin := by
    rw [calls, refused, moved]
    have onward {call : QueueCall} : (∃ running ∈ world.running, call.leaseToken = running.task.leaseToken) →
        ∃ running ∈ world.running.map move, call.leaseToken = running.task.leaseToken := by
      rintro ⟨running, listed, same⟩
      exact ⟨move running, List.mem_map_of_mem listed, by rw [same, task running listed]⟩
    intro call listed
    rcases List.mem_append.mp listed with old | new
    · exact (settling.origin call old).imp_left onward
    · exact .inl (onward (own call new))
  early := by
    rw [state, poll]
    exact settling.early
  undropped := by
    rw [moved]
    intro before running listed
    obtain ⟨first, listed', rfl⟩ := List.mem_map.mp listed
    exact undropped before first listed'
  refused := by
    rw [refused, moved, next]
    refine ⟨settling.refused.1, fun task' listed => ⟨(settling.refused.2 task' listed).1, fun running own' => ?_⟩⟩
    obtain ⟨first, listed', rfl⟩ := List.mem_map.mp own'
    rw [task first listed']
    exact (settling.refused.2 task' listed).2 first listed'
  closed := by
    rw [refused, poll]
    exact settling.closed
  released := by
    rw [refused, poll, calls]
    exact fun task' listed => (settling.released task' listed).imp_left (List.mem_append_left _)
  releasing := by
    rw [poll, refused]
    exact settling.releasing
  effects := by
    rw [effects, leases, calls]
    exact ⟨settling.effects.1, fun call listed => ⟨List.mem_append_left _ (settling.effects.2 call listed).1,
      (settling.effects.2 call listed).2⟩⟩

theorem Settling.stepTask (settling : Settling options world) (member : running ∈ world.running) (op : TaskOp) :
    Settling options (world.stepTask options running op) := by
  have step := op.run_steps options running
  obtain ⟨honest, owes⟩ := step.honest (settling.honest running member)
  -- the mark in `inFlight` counts for neither
  have unmarked {changed : RunningTask} (honest : Honest changed) : Honest { changed with mapped := false } :=
    ⟨honest.dropped, honest.aborted, honest.ended, honest.finished, honest.lost⟩
  refine settling.map (op.move options running) (op.run options running).2.1 (settling.minted.stepTask options member op) rfl rfl
    (fun _ own => op.move_task options settling.minted member own) (fun other own => ?_) (fun other own => ?_)
    (fun call made => ⟨running, member, step.calls made⟩) (fun before other own => ?_) rfl rfl rfl rfl rfl rfl
  · unfold TaskOp.move
    dsimp only
    split
    · split
      · exact unmarked honest
      · exact honest
    · split
      · exact unmarked (settling.honest other own)
      · exact settling.honest other own
  · by_cases same : other.task.leaseToken = running.task.leaseToken
    · obtain rfl := settling.minted.same member own same
      have all : (op.run options other).2.1.filter (fun call => call.leaseToken = other.task.leaseToken) = (op.run options other).2.1 :=
        List.filter_eq_self.mpr fun call made => by simpa using step.calls made
      rw [all, ← owes]
      unfold TaskOp.move
      dsimp only
      rw [if_pos rfl]
      split <;> rfl
    · have none' : (op.run options running).2.1.filter (fun call => call.leaseToken = other.task.leaseToken) = [] := by
        refine List.filter_eq_nil_iff.mpr fun call made => ?_
        rw [decide_eq_true_eq, step.calls made]
        exact fun same' => same same'.symm
      rw [none', List.append_nil]
      unfold TaskOp.move
      dsimp only
      rw [if_neg same]
      split <;> rfl
  · unfold TaskOp.move
    dsimp only
    have early := step.undropped (settling.undropped before running member)
    split <;> split
    · exact early
    · exact early
    · exact settling.undropped before other own
    · exact settling.undropped before other own

/-- What is running after a launch ran before it, or it is new. -/
theorem launch_cases (now : Int) (tasks : List LeasedTask) (before : List RunningTask)
    (member : running ∈ tasks.foldl (launch now) before) :
    (∃ first ∈ before, running = first ∨ running = { first with mapped := false }) ∨
      ∃ task ∈ tasks, running = launched now task ∨ running = { launched now task with mapped := false } := by
  induction tasks generalizing before with
  | nil => exact .inl ⟨running, member, .inl rfl⟩
  | cons task rest ih =>
    rcases ih _ member with ⟨first, listed, same⟩ | ⟨task', listed, same⟩
    · have unmarked {one : RunningTask} (same' : first = one ∨ first = { one with mapped := false }) :
          running = one ∨ running = { one with mapped := false } := by
        rcases same with rfl | rfl <;> rcases same' with rfl | rfl
        · exact .inl rfl
        · exact .inr rfl
        · exact .inr rfl
        · exact .inr rfl
      rcases List.mem_append.mp listed with old | new
      · obtain ⟨one, listed', rfl⟩ := List.mem_map.mp old
        refine .inl ⟨one, listed', unmarked ?_⟩
        split
        · exact .inr rfl
        · exact .inl rfl
      · exact .inr ⟨task, List.mem_cons_self, unmarked (.inl (List.mem_singleton.mp new))⟩
    · exact .inr ⟨task', List.mem_cons_of_mem _ listed, same⟩

/-- A launched delivery has made no call. -/
theorem Settling.arrives (settling : Settling options world) {now : Int} {tasks : List LeasedTask} (at' : world.poll = .arriving tasks)
    (runs : world.state = .running) (minted : Minted { world with poll := .looking, running := tasks.foldl (launch now) world.running }) :
    Settling options { world with poll := .looking, running := tasks.foldl (launch now) world.running } := by
  obtain ⟨unrefused, -⟩ := settling.awake (by rw [at']; rfl)
  obtain ⟨-, fresh⟩ := settling.minted.arriving tasks at'
  have uncalled : ∀ task ∈ tasks, world.callsOf task.leaseToken = [] := by
    intro task listed
    refine List.filter_eq_nil_iff.mpr fun call made => ?_
    rw [decide_eq_true_eq]
    rcases settling.origin call made with ⟨running, own, same⟩ | ⟨refused, listed', -⟩
    · rw [same]
      exact (fresh task listed).2 running own
    · rw [unrefused] at listed'
      cases listed'
  have onward {call : QueueCall} : (∃ running ∈ world.running, call.leaseToken = running.task.leaseToken) →
      ∃ running ∈ tasks.foldl (launch now) world.running, call.leaseToken = running.task.leaseToken := by
    rintro ⟨running, own, same⟩
    have listed : running.task.leaseToken ∈ (tasks.foldl (launch now) world.running).map fun running => running.task.leaseToken := by
      rw [launch_tokens]
      exact List.mem_append_left _ (List.mem_map_of_mem own)
    obtain ⟨later, own', same'⟩ := List.mem_map.mp listed
    exact ⟨later, own', same.trans same'.symm⟩
  have new (task : LeasedTask) : Honest (launched now task) :=
    ⟨⟨(fun same => nomatch same), fun fell => absurd rfl fell⟩, (fun same => nomatch same), ⟨fun _ => rfl, fun _ => rfl⟩,
      (fun same => nomatch same), fun same => nomatch same⟩
  refine ⟨minted, fun running own => ?_, fun running own => ?_, fun call made => (settling.origin call made).imp_left onward, ?_,
    fun before running own => ?_, ?_, ?_, ?_, (fun _ same => nomatch same), settling.effects⟩
  · rcases launch_cases now tasks world.running own with ⟨first, listed, rfl | rfl⟩ | ⟨task, listed, rfl | rfl⟩
    · exact settling.honest running listed
    · have kept := settling.honest first listed
      exact ⟨kept.dropped, kept.aborted, kept.ended, kept.finished, kept.lost⟩
    · exact new task
    · have kept := new task
      exact ⟨kept.dropped, kept.aborted, kept.ended, kept.finished, kept.lost⟩
  · rcases launch_cases now tasks world.running own with ⟨first, listed, rfl | rfl⟩ | ⟨task, listed, rfl | rfl⟩
    · exact settling.made running listed
    · exact settling.made first listed
    · exact uncalled task listed
    · exact uncalled task listed
  · intro idle
    cases runs.symm.trans idle
  · have undropped := settling.undropped before
    rcases launch_cases now tasks world.running own with ⟨first, listed, rfl | rfl⟩ | ⟨task, listed, rfl | rfl⟩
    · exact undropped running listed
    · exact undropped first listed
    · rfl
    · rfl
  · rw [unrefused]
    exact ⟨List.nodup_nil, fun _ none' => absurd none' List.not_mem_nil⟩
  · exact fun some' => absurd unrefused some'
  · rw [unrefused]
    exact fun _ none' => absurd none' List.not_mem_nil

theorem Settling.callsOf_id (settling : Settling options world) (member : running ∈ world.running) {call : QueueCall}
    (made : call ∈ world.calls) (own : call.leaseToken = running.task.leaseToken) :
    (∃ outcome, running.ending = some ⟨outcome, false, false⟩ ∧ call = running.call (settlementFor options running.task outcome)) ∨
      (running.drop = .nacking ∨ running.drop = .ended) ∧ call = running.call (.nack 0) := by
  have listed : call ∈ world.callsOf running.task.leaseToken := List.mem_filter.mpr ⟨made, by simpa using own⟩
  rw [settling.made running member] at listed
  rcases List.mem_append.mp listed with settled | dropped
  · unfold settleCalls at settled
    split at settled
    · next outcome ending => exact .inl ⟨outcome, ending, List.mem_singleton.mp settled⟩
    · cases settled
  · unfold dropCalls at dropped
    split at dropped
    · next fell => exact .inr ⟨fell, List.mem_singleton.mp dropped⟩
    · cases dropped

/-- Calls with one lease token are about one task. -/
theorem Settling.same_id (settling : Settling options world) {one two : QueueCall} (made : one ∈ world.calls)
    (made' : two ∈ world.calls) (same : one.leaseToken = two.leaseToken) : one.id = two.id := by
  have about {running : RunningTask} (member : running ∈ world.running) {call : QueueCall} (made : call ∈ world.calls)
      (own : call.leaseToken = running.task.leaseToken) : call.id = running.task.id := by
    rcases settling.callsOf_id member made own with ⟨-, -, rfl⟩ | ⟨-, rfl⟩ <;> rfl
  rcases settling.origin one made with ⟨running, member, own⟩ | ⟨task, listed, rfl⟩
  · rcases settling.origin two made' with ⟨running', member', own'⟩ | ⟨task', listed', rfl⟩
    · obtain rfl := settling.minted.same member member' (own'.symm.trans (same.symm.trans own))
      rw [about member made own, about member' made' own']
    · exact absurd (own.symm.trans same) ((settling.refused.2 task' listed').2 running member)
  · rcases settling.origin two made' with ⟨running', member', own'⟩ | ⟨task', listed', rfl⟩
    · exact absurd (own'.symm.trans same.symm) ((settling.refused.2 task listed).2 running' member')
    · rw [List.inj_on_of_nodup_map settling.refused.1 listed listed' same]

theorem Settling.call_below (settling : Settling options world) {call : QueueCall} (made : call ∈ world.calls) :
    call.leaseToken < world.nextToken := by
  rcases settling.origin call made with ⟨running, member, own⟩ | ⟨task, listed, rfl⟩
  · rw [own]
    exact settling.minted.below running member
  · exact (settling.refused.2 task listed).1

/-- A call takes effect for the holder of the lease, and ends it. -/
theorem Settling.handles (settling : Settling options world) {call : QueueCall} (held : world.leases call.id = some call.leaseToken)
    (made : call ∈ world.calls) (minted : Minted { world with
      leases := Function.update world.leases call.id none, effects := world.effects ++ [call] }) :
    Settling options { world with
      leases := Function.update world.leases call.id none, effects := world.effects ++ [call] } := by
  refine ⟨minted, settling.honest, settling.made, settling.origin, settling.early, settling.undropped, settling.refused,
    settling.closed, settling.released, settling.releasing, ?_, ?_⟩
  · dsimp only
    rw [List.map_append, List.nodup_append]
    refine ⟨settling.effects.1, List.nodup_singleton _, ?_⟩
    intro token old other new same
    obtain ⟨before, listed, rfl⟩ := List.mem_map.mp old
    cases List.mem_singleton.mp new
    obtain ⟨made', spent⟩ := settling.effects.2 before listed
    have id := settling.same_id made' made same
    rw [id, same] at spent
    exact spent held
  · intro other listed
    rcases List.mem_append.mp listed with old | new
    · obtain ⟨made', spent⟩ := settling.effects.2 other old
      refine ⟨made', ?_⟩
      dsimp only
      by_cases same : other.id = call.id
      · rw [same, Function.update_self]
        exact fun same => nomatch same
      · rw [Function.update_of_ne same]
        exact spent
    · cases List.mem_singleton.mp new
      refine ⟨made, ?_⟩
      dsimp only
      rw [Function.update_self]
      exact fun same => nomatch same

/-- New leases have new tokens. -/
theorem leases_new (tasks : List LeasedTask) (leases : TaskId → Option LeaseToken) (id : TaskId) :
    tasks.foldl (fun leases (task : LeasedTask) => Function.update leases task.id (some task.leaseToken)) leases id = leases id ∨
      ∃ task ∈ tasks, tasks.foldl (fun leases (task : LeasedTask) => Function.update leases task.id (some task.leaseToken)) leases id =
        some task.leaseToken := by
  induction tasks generalizing leases with
  | nil => exact .inl rfl
  | cons task rest ih =>
    rw [List.foldl_cons]
    rcases ih (Function.update leases task.id (some task.leaseToken)) with same | ⟨later, listed, same⟩
    · rw [same]
      by_cases own : id = task.id
      · rw [own, Function.update_self]
        exact .inr ⟨task, List.mem_cons_self, rfl⟩
      · rw [Function.update_of_ne own]
        exact .inl rfl
    · exact .inr ⟨later, List.mem_cons_of_mem _ listed, same⟩

/-- Tasks that come after the stop began are not started. -/
theorem Settling.refuses (settling : Settling options world) {tasks : List LeasedTask} (at' : world.poll = .arriving tasks)
    (minted : Minted { world with poll := .releasing tasks, refused := world.refused ++ tasks }) :
    Settling options { world with poll := .releasing tasks, refused := world.refused ++ tasks } := by
  obtain ⟨unrefused, awake⟩ := settling.awake (by rw [at']; rfl)
  obtain ⟨distinct, fresh⟩ := settling.minted.arriving tasks at'
  rw [unrefused, List.nil_append] at minted ⊢
  refine ⟨minted, settling.honest, settling.made, fun call made => ?_, fun idle => ?_, settling.undropped, ⟨distinct, fresh⟩,
    fun _ => .inl ⟨tasks, rfl⟩, fun task listed => .inr ⟨tasks, rfl, listed⟩, ?_, settling.effects⟩
  · refine (settling.origin call made).imp_right fun ⟨task, listed, _⟩ => ?_
    rw [unrefused] at listed
    cases listed
  · exact absurd idle awake
  · rintro _ ⟨⟩ task listed
    exact listed

/-- The next refused task is given back. -/
theorem Settling.releases (settling : Settling options world) {first : LeasedTask} {rest : List LeasedTask}
    (at' : world.poll = .releasing (first :: rest))
    (minted : Minted { world with poll := .releasing rest, calls := world.calls ++ [first.release] }) :
    Settling options { world with poll := .releasing rest, calls := world.calls ++ [first.release] } := by
  have listed := settling.releasing _ at' first List.mem_cons_self
  refine ⟨minted, settling.honest, fun running member => ?_, fun call made => ?_, fun idle => ?_, settling.undropped, settling.refused,
    fun _ => .inl ⟨rest, rfl⟩, fun task own => ?_, ?_, settling.effects.1, fun call own => ?_⟩
  · have made := settling.made running member
    unfold WorkerWorld.callsOf at made ⊢
    have other : ¬ first.release.leaseToken = running.task.leaseToken := fun same =>
      (settling.refused.2 first listed).2 running member same.symm
    rw [List.filter_append, made, List.filter_singleton, decide_eq_false other]
    exact List.append_nil _
  · rcases List.mem_append.mp made with old | new
    · exact settling.origin call old
    · exact .inr ⟨first, listed, List.mem_singleton.mp new⟩
  · have asleep := settling.early idle
    rw [at'] at asleep
    cases asleep
  · rcases settling.released task own with made | ⟨_, same, next'⟩
    · exact .inl (List.mem_append_left _ made)
    · cases at'.symm.trans same
      rcases List.mem_cons.mp next' with rfl | later
      · exact .inl (List.mem_append_right _ List.mem_cons_self)
      · exact .inr ⟨rest, rfl, later⟩
  · rintro _ ⟨⟩ task own
    exact settling.releasing _ at' task (List.mem_cons_of_mem _ own)
  · exact ⟨List.mem_append_left _ (settling.effects.2 call own).1, (settling.effects.2 call own).2⟩

/-- A poll that ends has given back what it refused. -/
theorem Settling.ends (settling : Settling options world) (at' : world.poll = .releasing [])
    (minted : Minted { world with poll := .ended }) : Settling options { world with poll := .ended } := by
  refine ⟨minted, settling.honest, settling.made, settling.origin, fun idle => ?_, settling.undropped, settling.refused,
    fun _ => .inr rfl, fun task own => .inl ?_, (fun _ same => nomatch same), settling.effects⟩
  · have asleep := settling.early idle
    rw [at'] at asleep
    cases asleep
  · rcases settling.released task own with made | ⟨_, same, next'⟩
    · exact made
    · cases at'.symm.trans same
      cases next'

/-- Every operation keeps what settles the deliveries. -/
theorem Settling.step (settling : Settling options world) (op : WorkerOp) : Settling options (op.run options world) := by
  have minted := settling.minted.step options op
  revert minted
  cases op with
  | start =>
    simp only [WorkerOp.run]
    split <;> intro minted
    · next idle =>
        have asleep := settling.early idle
        have unrefused := settling.unrefused (by rw [asleep]; rintro _ ⟨⟩)
          (by rw [asleep]; rintro ⟨⟩)
        exact settling.frame minted rfl rfl rfl rfl (Nat.le_refl _) id (by rintro ⟨⟩) settling.leases
          (.inr ⟨unrefused, by rintro _ ⟨⟩⟩)
    · exact settling
  | looks =>
    simp only [WorkerOp.run]
    split
    · next at' =>
        obtain ⟨unrefused, awake⟩ := settling.awake (by rw [at']; rfl)
        split <;> intro minted
        · refine settling.frame minted rfl rfl rfl rfl (Nat.le_refl _) id (fun idle => absurd idle awake) settling.leases
            (.inr ⟨unrefused, fun _ same => ?_⟩)
          dsimp only at same
          split at same <;> cases same
        · exact settling.frame minted rfl rfl rfl rfl (Nat.le_refl _) id (fun idle => absurd idle awake) settling.leases
            (.inr ⟨unrefused, by rintro _ ⟨⟩⟩)
    · exact fun _ => settling
  | budgets budget =>
    simp only [WorkerOp.run]
    split <;> intro minted
    · next free at' =>
        obtain ⟨unrefused, awake⟩ := settling.awake (by rw [at']; rfl)
        refine settling.frame minted rfl rfl rfl rfl (Nat.le_refl _) id (fun idle => absurd idle awake) settling.leases
          (.inr ⟨unrefused, fun _ same => ?_⟩)
        dsimp only at same
        split at same <;> cases same
    · exact settling
  | leases tasks =>
    simp only [WorkerOp.run]
    split
    · next limit at' =>
        obtain ⟨unrefused, awake⟩ := settling.awake (by rw [at']; rfl)
        split <;> intro minted
        · refine settling.frame minted rfl rfl rfl rfl (Nat.le_add_right _ _) id (fun idle => absurd idle awake)
            (fun call listed => ?_) (.inr ⟨unrefused, by rintro _ ⟨⟩⟩)
          obtain ⟨made, spent⟩ := settling.effects.2 call listed
          dsimp only
          rcases leases_new (leaseTasks world.nextToken tasks) world.leases call.id with same | ⟨task, own, same⟩
          · rw [same]
            exact spent
          · rw [same]
            have token := List.mem_map_of_mem (f := LeasedTask.leaseToken) own
            rw [leaseTasks_tokens, List.mem_range'_1] at token
            exact fun same' => Nat.ne_of_gt (Nat.lt_of_lt_of_le (settling.call_below made) token.1) (Option.some.inj same')
        · exact settling
    · exact fun _ => settling
  | dequeueFails =>
    simp only [WorkerOp.run]
    split <;> intro minted
    · next at' =>
        obtain ⟨unrefused, awake⟩ := settling.awake (by rw [at']; rfl)
        exact settling.frame minted rfl rfl rfl rfl (Nat.le_refl _) id (fun idle => absurd idle awake) settling.leases
          (.inr ⟨unrefused, by rintro _ ⟨⟩⟩)
    · next at' =>
        obtain ⟨unrefused, awake⟩ := settling.awake (by rw [at']; rfl)
        exact settling.frame minted rfl rfl rfl rfl (Nat.le_refl _) id (fun idle => absurd idle awake) settling.leases
          (.inr ⟨unrefused, by rintro _ ⟨⟩⟩)
    · exact settling
  | arrives now =>
    simp only [WorkerOp.run]
    split
    · next tasks at' =>
        obtain ⟨unrefused, -⟩ := settling.awake (by rw [at']; rfl)
        split
        · exact settling.refuses at'
        · next runs =>
            rw [not_not] at runs
            split <;> intro minted
            · exact settling.frame minted rfl rfl rfl rfl (Nat.le_refl _) id
                (fun idle => absurd (runs.symm.trans idle) (by rintro ⟨⟩)) settling.leases
                (.inr ⟨unrefused, by rintro _ ⟨⟩⟩)
            · exact settling.arrives at' runs minted
    · exact fun _ => settling
  | releases =>
    simp only [WorkerOp.run]
    split
    · next at' => exact settling.ends at'
    · next first rest at' => exact settling.releases at'
    · exact fun _ => settling
  | wakes => exact fun _ => settling.wake
  | task leaseToken op =>
    intro _
    cases found : world.find? leaseToken with
    | none =>
      simp only [WorkerOp.run, found]
      exact settling
    | some running =>
      have stepped := settling.stepTask (find?_some found).1 op
      rcases task_run options found op with same | same
      · exact same ▸ stepped
      · exact same ▸ stepped.wake
  | stops =>
    simp only [WorkerOp.run]
    split
    · next at' =>
        intro _
        have stopping : Settling options { world with state := .stopping, shutdown := .joining } :=
          settling.frame (settling.minted.frame rfl (Nat.le_refl _) fun _ at' => .inl at') rfl rfl rfl rfl (Nat.le_refl _)
            (fun _ => .inl at') (by rintro ⟨⟩) settling.leases (.inl rfl)
        exact stopping.wake
    · exact fun _ => settling
  | joins =>
    simp only [WorkerOp.run]
    split <;> intro minted
    · next at' _ =>
        exact settling.frame minted rfl rfl rfl rfl (Nat.le_refl _) (fun _ => .inr (.inl at')) settling.early settling.leases (.inl rfl)
    · next at' _ =>
        exact settling.frame minted rfl rfl rfl rfl (Nat.le_refl _) (fun _ => .inr (.inl at')) settling.early settling.leases (.inl rfl)
    · exact settling
  | finishes | stopped =>
    simp only [WorkerOp.run]
    split
    · split <;> intro minted
      · refine settling.frame minted rfl rfl rfl rfl (Nat.le_refl _) ?_ (by rintro ⟨⟩) settling.leases (.inl rfl)
        rintro (same | same | ⟨_, same⟩) <;> cases same
      · exact settling
    · exact fun _ => settling
  | timesOut =>
    simp only [WorkerOp.run]
    split <;> intro minted
    · next tokens at' =>
        have undropped := settling.undropped (.inr (.inr ⟨tokens, at'⟩))
        refine settling.map _ [] minted rfl (List.append_nil _).symm (fun running _ => ?_) (fun running own => ?_)
          (fun running own => ?_) (fun _ none' => absurd none' List.not_mem_nil) ?_ rfl rfl rfl rfl rfl rfl
        · split <;> rfl
        · split
          · exact (@Honest.startDrop options _ (settling.honest running own) (undropped running own)).1
          · exact settling.honest running own
        · rw [List.filter_nil, List.append_nil]
          split
          · exact ((settling.honest running own).startDrop (undropped running own)).2
          · rfl
        · rintro (same | same | ⟨_, same⟩) <;> cases same
    · exact settling
  | handles call =>
    simp only [WorkerOp.run]
    split
    · next held => exact settling.handles held.1 held.2
    · exact fun _ => settling
  | relets id taken =>
    simp only [WorkerOp.run]
    intro minted
    refine settling.frame minted rfl rfl rfl rfl (Nat.le_succ _) (fun before => before) settling.early (fun call listed => ?_) (.inl rfl)
    obtain ⟨made, spent⟩ := settling.effects.2 call listed
    dsimp only
    by_cases same : call.id = id
    · rw [same, Function.update_self]
      split
      · exact fun same' => Nat.ne_of_gt (settling.call_below made) (Option.some.inj same')
      · rintro ⟨⟩
    · rw [Function.update_of_ne same]
      exact spent

end Worlds

section Results

/-- The run lemma. -/
theorem WorkerRun.settling (run : WorkerRun options allowed start world) (fresh : start.Fresh) : Settling options world := by
  induction run with
  | refl =>
    obtain ⟨-, poll, running, shutdown, -, calls, effects, refused⟩ := fresh
    have absent {P : RunningTask → Prop} : ∀ running ∈ start.running, P running := by
      rw [running]
      exact fun _ own => absurd own List.not_mem_nil
    refine ⟨⟨by rw [running]; exact List.nodup_nil, absent, fun _ at' => ?_⟩, absent, absent, ?_, fun _ => poll, fun _ => absent,
      ?_, fun some' => absurd refused some', ?_, fun _ at' => ?_, ?_⟩
    · cases poll.symm.trans at'
    · rw [calls]
      exact fun _ own => absurd own List.not_mem_nil
    · rw [refused]
      exact ⟨List.nodup_nil, fun _ own => absurd own List.not_mem_nil⟩
    · rw [refused]
      exact fun _ own => absurd own List.not_mem_nil
    · cases poll.symm.trans at'
    · rw [effects]
      exact ⟨List.nodup_nil, fun _ own => absurd own List.not_mem_nil⟩
  | step _ op _ ih => exact ih.step op

/-- The calls that settle a delivery by an outcome of its handler. -/
def Settles : HandlerOutcome → Settlement → Prop
  | .resolved, settlement => settlement = .ack
  | .parked message, settlement => settlement = .quarantine message
  | .threw _, settlement => (∃ delayMs, settlement = .nack delayMs) ∨ ∃ reason, settlement = .quarantine reason

theorem settlementFor_settles (options : WorkerOptions) (task : LeasedTask) (outcome : HandlerOutcome) :
    Settles outcome (settlementFor options task outcome) := by
  cases outcome with
  | resolved => rfl
  | parked message => rfl
  | threw message =>
    simp only [settlementFor, settleFailure, Settles, Bool.false_eq_true, if_false]
    split
    · exact .inr ⟨_, rfl⟩
    · exact .inl ⟨_, rfl⟩

/-- In every run and for each delivery, one call takes effect at most. A handler that ends while its
delivery is neither aborted nor dropped makes one call, by its outcome; another makes none. A delivery whose
heartbeat aborted it is not acked; a drop aborts the signal before its nack; and a task that arrives after the
stop began is given back and never launched. -/
theorem worker_settles (run : WorkerRun options allowed start world) (fresh : start.Fresh) :
    (world.effects.map QueueCall.leaseToken).Nodup ∧ (∀ running ∈ world.running,
      (∀ outcome, running.ending = some ⟨outcome, false, false⟩ → ∃ settlement, Settles outcome settlement ∧
        running.call settlement ∈ world.calls) ∧ (∀ call ∈ world.calls, call.leaseToken = running.task.leaseToken →
        (∃ outcome, running.ending = some ⟨outcome, false, false⟩ ∧ Settles outcome call.settlement) ∨
          running.dropped = true ∧ running.aborted.isSome = true ∧ call.settlement = .nack 0) ∧
      (world.callsOf running.task.leaseToken).length ≤ running.ending.isSome.toNat + running.dropped.toNat ∧
      (running.aborted = some .leaseLost → ∀ call ∈ world.calls, call.leaseToken = running.task.leaseToken → call.settlement ≠ .ack) ∧
      (running.drop ≠ .none → running.aborted.isSome = true)) ∧ (∀ task ∈ world.refused,
      (∀ running ∈ world.running, running.task.leaseToken ≠ task.leaseToken) ∧
      (∀ call ∈ world.calls, call.leaseToken = task.leaseToken → call = task.release) ∧
      (task.release ∈ world.calls ∨ ∃ rest, world.poll = .releasing rest ∧ task ∈ rest)) := by
  have settling := run.settling fresh
  refine ⟨settling.effects.1, fun running member => ?_, fun task listed => ⟨(settling.refused.2 task listed).2, ?_,
    settling.released task listed⟩⟩
  · have honest := settling.honest running member
    have fell (dropped : running.drop = .nacking ∨ running.drop = .ended) : running.dropped = true := by
      refine honest.dropped.mpr ?_
      rcases dropped with same | same <;> rw [same] <;> exact fun same => nomatch same
    refine ⟨fun outcome ending => ?_, fun call made own => ?_, ?_, fun lost call made own => ?_, fun dropped =>
      honest.aborted (honest.dropped.mpr dropped)⟩
    · refine ⟨_, settlementFor_settles options running.task outcome, ?_⟩
      have listed : running.call (settlementFor options running.task outcome) ∈ world.callsOf running.task.leaseToken := by
        rw [settling.made running member, settleCalls, ending]
        exact List.mem_append_left _ List.mem_cons_self
      exact (List.mem_filter.mp listed).1
    · rcases settling.callsOf_id member made own with ⟨outcome, ending, rfl⟩ | ⟨dropped, rfl⟩
      · exact .inl ⟨outcome, ending, settlementFor_settles options running.task outcome⟩
      · exact .inr ⟨fell dropped, honest.aborted (fell dropped), rfl⟩
    · rw [settling.made running member, List.length_append]
      have one : (settleCalls options running).length ≤ running.ending.isSome.toNat := by
        unfold settleCalls
        split
        · next ending =>
            rw [ending]
            exact Nat.le_refl 1
        · exact Nat.zero_le _
      have two : (dropCalls running).length ≤ running.dropped.toNat := by
        unfold dropCalls
        split
        · next dropped =>
            rw [fell dropped]
            exact Nat.le_refl 1
        · exact Nat.zero_le _
      exact Nat.add_le_add one two
    · rcases settling.callsOf_id member made own with ⟨outcome, ending, rfl⟩ | ⟨-, rfl⟩
      · cases honest.lost lost _ ending
      · exact fun same => nomatch same
  · intro call made own
    rcases settling.origin call made with ⟨running, member, same⟩ | ⟨other, listed', rfl⟩
    · exact absurd (same.symm.trans own) ((settling.refused.2 task listed).2 running member)
    · rw [List.inj_on_of_nodup_map settling.refused.1 listed' listed own]

/-- One delivery is acknowledged, one is dropped at the end of its grace, and a task arrives after the stop began. -/
def stoppedWorker : WorkerWorld :=
  [WorkerOp.start, .looks, .budgets none, .leases [("a", 1), ("b", 1)], .arrives 0, .looks, .budgets none, .leases [("c", 1)],
    .task 0 (.ends .resolved), .handles ⟨"a", 0, .ack⟩, .stops, .arrives 0, .releases, .releases, .joins, .timesOut,
    .task 1 .nacks, .handles ⟨"b", 1, .nack 0⟩].foldl (WorkerOp.run ⟨3, 30000, 0, none, 10⟩) freshWorker

theorem worker_settles_refused : stoppedWorker.effects = [⟨"a", 0, .ack⟩, ⟨"b", 1, .nack 0⟩] ∧
    (stoppedWorker.effects.map QueueCall.leaseToken).Nodup ∧ (∀ running ∈ stoppedWorker.running,
      (stoppedWorker.callsOf running.task.leaseToken).length ≤ running.ending.isSome.toNat + running.dropped.toNat) ∧
    ∀ task ∈ stoppedWorker.refused, ∀ call ∈ stoppedWorker.calls, call.leaseToken = task.leaseToken → call = task.release := by
  have run : WorkerRun ⟨3, 30000, 0, none, 10⟩ (fun _ _ => True) freshWorker stoppedWorker := WorkerRun.all _ _ _
  obtain ⟨once, settled, refused⟩ := worker_settles run freshWorker_fresh
  exact ⟨rfl, once, fun running member => (settled running member).2.2.1, fun task listed => (refused task listed).2.1⟩

/-- A handler resolves in the grace of a drop, while its lease is held, and its task is nacked; and a delivery
that failed is nacked before its shutdown drops it and aborts its signal. -/
theorem worker_drops_resolved : (∃ world, WorkerRun ⟨1, 30000, 0, none, 10⟩ (fun _ _ => True) freshWorker world ∧
      world.effects = [⟨"a", 0, .nack 0⟩] ∧ world.calls = world.effects ∧
      ∃ running ∈ world.running, running.task.leaseToken = 0 ∧ running.ending = some ⟨.resolved, true, true⟩) ∧
    ∃ world, WorkerRun ⟨1, 30000, 0, none, 10⟩ (fun _ _ => True) freshWorker world ∧ world.effects = [⟨"a", 0, .nack 0⟩] ∧
      (∃ running ∈ world.running, running.task.leaseToken = 0 ∧ running.aborted = none) ∧
      ∃ running ∈ ((WorkerOp.timesOut).run ⟨1, 30000, 0, none, 10⟩ world).running, running.task.leaseToken = 0 ∧
        running.dropped = true ∧ running.aborted = some .shutdownTimeout := by
  constructor
  · refine ⟨_, WorkerRun.all _ _ [.start, .looks, .budgets none, .leases [("a", 1)], .arrives 0, .stops, .looks, .joins, .timesOut,
      .task 0 (.ends .resolved), .task 0 .nacks, .handles ⟨"a", 0, .nack 0⟩], rfl, rfl, _, List.mem_cons_self, rfl, rfl⟩
  · refine ⟨_, WorkerRun.all _ _ [.start, .looks, .budgets none, .leases [("a", 1)], .arrives 0, .stops, .looks, .joins,
      .task 0 (.ends (.threw "boom")), .handles ⟨"a", 0, .nack 0⟩], rfl, ⟨_, List.mem_cons_self, rfl, rfl⟩, _,
      List.mem_cons_self, rfl, rfl, rfl⟩

end Results

end DurableExecution.Worker

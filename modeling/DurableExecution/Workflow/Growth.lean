import DurableExecution.Workflow.Continuation

/-
This file follows the promises of a replay. What is settled stays settled, a reaction is kept until
it is queued, and a promise that has no place in the history stays as it was made.
-/

namespace DurableExecution.Workflow

open EventLoop

abbrev ReplayPromise (H : Type) := Promise H (Operation H) JsValue (Resumption H) WaitTag

abbrev ReplayJob (H : Type) := Job H (Operation H) JsValue (Resumption H)

section Growth

variable {H : Type} {first before world after : ReplayWorld H} {old middle new : ReplayPromise H}
  {jobs later : List (ReplayJob H)}

/-- A promise that the context makes without a place in the history. -/
def Unplaced (promise : ReplayPromise H) : Prop := promise.owner = .host ∧ promise.tag.completionPosition = none

/-- What may become of a promise while the reactions that it releases are among the jobs. -/
structure Moves (jobs : List (ReplayJob H)) (old new : ReplayPromise H) : Prop where
  owner : new.owner = old.owner
  tag : new.tag = old.tag
  settled : ∀ outcome, old.status = .settled outcome → new.status = .settled outcome
  pending : ∀ reactions, old.status = .pending reactions → (∃ more, new.status = .pending (reactions ++ more)) ∨
    ¬ Unplaced old ∧ ∃ outcome, new.status = .settled outcome ∧ ∀ reaction ∈ reactions, reaction.job outcome ∈ jobs

theorem Moves.refl (jobs : List (ReplayJob H)) (old : ReplayPromise H) : Moves jobs old old :=
  ⟨rfl, rfl, fun _ => id, fun reactions same => .inl ⟨[], by rw [List.append_nil]; exact same⟩⟩

theorem Moves.trans (one : Moves jobs old middle) (two : Moves later middle new) (kept : ∀ job ∈ jobs, job ∈ later) :
    Moves later old new := by
  refine ⟨two.owner.trans one.owner, two.tag.trans one.tag, fun outcome same => two.settled outcome (one.settled outcome same),
    fun reactions same => ?_⟩
  rcases one.pending reactions same with ⟨more, same⟩ | ⟨placed, outcome, same, queued⟩
  · rcases two.pending _ same with ⟨others, same⟩ | ⟨placed, outcome, same, queued⟩
    · exact .inl ⟨more ++ others, by rw [same, List.append_assoc]⟩
    · refine .inr ⟨fun unplaced => placed ?_, outcome, same, fun reaction listed => queued reaction (List.mem_append_left _ listed)⟩
      exact ⟨one.owner.trans unplaced.1, by rw [one.tag]; exact unplaced.2⟩
  · exact .inr ⟨placed, outcome, two.settled outcome same, fun reaction listed => kept _ (queued reaction listed)⟩

/-- Promises only move on, and jobs are only added. -/
structure Grows (before after : ReplayWorld H) : Prop where
  promises : ∀ (target : PromiseId) (old : ReplayPromise H), before.promises[target]? = some old →
    ∃ new : ReplayPromise H, after.promises[target]? = some new ∧ Moves after.jobs old new
  jobs : ∀ job ∈ before.jobs, job ∈ after.jobs

theorem Grows.refl (world : ReplayWorld H) : Grows world world := ⟨fun _ old held => ⟨old, held, .refl _ old⟩, fun _ => id⟩

theorem Grows.trans (one : Grows before world) (two : Grows world after) : Grows before after := by
  refine ⟨fun target old held => ?_, fun job listed => two.jobs job (one.jobs job listed)⟩
  obtain ⟨middle, held, moves⟩ := one.promises target old held
  obtain ⟨new, held, moves'⟩ := two.promises target middle held
  exact ⟨new, held, moves.trans moves' two.jobs⟩

theorem Grows.same (grows : Grows before world) (promises : after.promises = world.promises) (jobs : after.jobs = world.jobs) :
    Grows before after := by
  constructor
  · rw [promises, jobs]
    exact grows.promises
  · rw [jobs]
    exact grows.jobs

theorem Grows.alloc (grows : Grows before world) (promise : ReplayPromise H) : Grows before (world.alloc promise).2 := by
  refine grows.trans ⟨fun target old held => ⟨old, ?_, .refl _ old⟩, fun _ => id⟩
  have inside : target < world.promises.length := (List.getElem?_eq_some_iff.mp held).1
  simp only [World.alloc]
  rwa [List.getElem?_append_left inside]

/-- One promise of the table moves on. -/
theorem Grows.replaced (grows : Grows before world) {target : PromiseId} {status : Status H (Operation H) JsValue (Resumption H)}
    (held : world.promises[target]? = some old) (kept : ∀ job ∈ world.jobs, job ∈ jobs)
    (moves : Moves jobs old (old.withStatus status)) :
    Grows before { world with promises := world.promises.set target (old.withStatus status), jobs := jobs } := by
  refine grows.trans ⟨fun other found own => ?_, kept⟩
  dsimp only
  by_cases same : target = other
  · subst same
    rw [held] at own
    cases own
    have inside : target < world.promises.length := (List.getElem?_eq_some_iff.mp held).1
    exact ⟨_, List.getElem?_set_self inside, moves⟩
  · exact ⟨found, by rw [List.getElem?_set_ne same]; exact own, .refl _ found⟩

/-- Nobody settles a promise that has no place in the history. -/
theorem Grows.settle (grows : Grows before world) (owner : Owner) (target : PromiseId) (outcome : Except JsValue JsValue)
    (placed : owner = .host → ∀ promise, world.promises[target]? = some promise → promise.tag.completionPosition ≠ none) :
    Grows before (world.settle owner target outcome) := by
  unfold World.settle
  split
  · next promise held =>
      split
      · next reactions status =>
          split
          · next own =>
              refine grows.replaced held (fun job listed => List.mem_append_left _ listed) ⟨rfl, rfl, fun _ same => ?_, fun _ same => ?_⟩
              · cases status.symm.trans same
              · cases status.symm.trans same
                refine .inr ⟨fun unplaced => placed (own.symm.trans unplaced.1) promise held unplaced.2, outcome, rfl, ?_⟩
                exact fun reaction listed => List.mem_append_right _ (List.mem_map_of_mem listed)
          · exact grows
      · exact grows
  · exact grows

theorem Grows.react (grows : Grows before world) (target : PromiseId) (reaction : Reaction H (Operation H) JsValue (Resumption H)) :
    Grows before (world.react target reaction) := by
  unfold World.react
  split
  · next promise held =>
      split
      · next reactions status =>
          refine grows.replaced held (fun _ => id) ⟨rfl, rfl, fun _ same => ?_, fun _ same => ?_⟩
          · cases status.symm.trans same
          · cases status.symm.trans same
            exact .inl ⟨[reaction], rfl⟩
      · exact grows.trans ⟨fun _ old held => ⟨old, held, .refl _ old⟩, fun _ listed => List.mem_append_left _ listed⟩
  · exact grows

theorem Grows.enqueue (grows : Grows before world) (job : ReplayJob H) : Grows before (world.enqueue job) :=
  grows.trans ⟨fun _ old held => ⟨old, held, .refl _ old⟩, fun _ listed => List.mem_append_left _ listed⟩

theorem Grows.completedAt (grows : Grows before world) (place : Nat) (outcome : Except JsValue JsValue) :
    Grows before (completedAt place outcome world).1 := by
  unfold Workflow.completedAt
  dsimp only
  split
  · exact grows.alloc _
  · exact (grows.alloc ⟨.host, ⟨some place, false⟩, .pending []⟩).same rfl rfl

/-- A resumption settles no promise but a free one. -/
def Resumption.Free (free : PromiseId → Prop) : Resumption H → Prop
  | .chosen state | .taskSettled state _ => free state.result
  | .allDone result | .selected result _ => free result
  | .handlerSettled | .compensated _ => True

theorem Resumption.free_all (resume : Resumption H) : resume.Free fun _ => True := by
  cases resume <;> trivial

theorem promises_longer (tags : ∀ target tag, before.tagOf target = some tag → after.tagOf target = some tag) :
    before.promises.length ≤ after.promises.length := by
  cases size : before.promises.length with
  | zero => exact Nat.zero_le _
  | succ last =>
    have inside : last < before.promises.length := by omega
    have known := tags last before.promises[last].tag (by rw [World.tagOf, List.getElem?_eq_getElem inside, Option.map_some])
    cases held : after.promises[last]? with
    | none =>
      rw [World.tagOf, held] at known
      cases known
    | some promise => exact (List.getElem?_eq_some_iff.mp held).1

/-- A replay loses no promise. -/
theorem replay_longer (replay : Replay) (count : Nat) :
    ReplayInvariant replay fun world : ReplayWorld H => count ≤ world.promises.length where
  frame _ _ same enough := enough.trans (promises_longer same.tags)
  step _ _ _ _ _ enough := enough.trans (promises_longer (step_keepsWaits ..).tags)
  sleep _ _ _ _ enough := enough.trans (promises_longer (sleep_keepsWaits ..).tags)
  waitForSignal cancelled signalName world _ enough := by
    let counted : ReplayWorld H := update (fun state => { state with
      signalSequences := Function.update state.signalSequences signalName (world.host.signalSequences signalName + 1) }) world
    have same : KeepsWaits counted counted := .same rfl rfl fun _ _ => id
    unfold Workflow.waitForSignal
    dsimp only
    split
    · exact enough.trans (promises_longer (same.completedAt _ _).tags)
    · split <;> exact enough.trans (promises_longer (same.returned _).tags)
  startChild _ _ _ _ _ _ enough := enough.trans (promises_longer (startChild_keepsWaits ..).tags)
  decidePatch _ _ enough := enough.trans (promises_longer (decidePatch_keepsWaits ..).tags)
  now _ enough := enough.trans (promises_longer (now_keepsWaits ..).tags)
  noteChoice _ _ enough := enough.trans (promises_longer (noteChoice_keepsWaits ..).tags)
  compensationFailed _ _ _ enough := enough.trans (promises_longer (compensationFailed_keepsWaits ..).tags)

theorem run_longer (replay : Replay) (code : WorkflowCode H) (world : ReplayWorld H) :
    world.promises.length ≤ (EventLoop.run (replayHost H replay) code world).1.promises.length :=
  (replay_longer replay world.promises.length).preserves.run code world (Nat.le_refl _)

def Resumption.compensates : Resumption H → Bool
  | .compensated _ => true
  | .chosen _ | .taskSettled _ _ | .allDone _ | .selected _ _ | .handlerSettled => false

/-- The commands that code has a decision record. -/
def WorkflowCommand.ofCode : WorkflowCommand → Bool
  | .scheduleStep .. | .startTimer .. | .startChild .. | .recordPatch .. | .recordTime _ => true
  | .recordCompensationFailure .. | .completeRun _ | .failRun _ | .cancelRun _ | .continueAsNew _ => false

/-- What a call does besides its promises: it records a command at most, and may register a compensation. -/
structure Beside (world after : ReplayWorld H) : Prop where
  promises : after.promises = world.promises
  jobs : after.jobs = world.jobs
  fedUpTo : after.host.fedUpTo = world.host.fedUpTo
  deliveries : after.host.deliveries = world.host.deliveries
  compensated : after.host.compensated = world.host.compensated
  compensations : world.host.compensations <+: after.host.compensations
  commands : after.host.newCommands = world.host.newCommands ∨
    ∃ command, command.ofCode = true ∧ after.host.newCommands = world.host.newCommands ++ [command]

/-- A property that code keeps, and what goes on with its calls: as below, but nothing is said of the steps that only the
compensations take. -/
structure KeptByCode (free : PromiseId → Prop) (holds : ReplayWorld H → Prop) : Prop where
  same : ∀ {world after : ReplayWorld H}, holds world → Beside world after → holds after
  unplaced : ∀ {world : ReplayWorld H} (promise : ReplayPromise H), promise.tag.completionPosition = none →
    (∀ reaction reactions, promise.status ≠ .pending (reaction :: reactions)) → holds world → holds (world.alloc promise).2
  placed : ∀ {world : ReplayWorld H} (place : Nat) (outcome : Except JsValue JsValue), holds world →
    holds (completedAt place outcome world).1
  settle : ∀ {world : ReplayWorld H} (owner : Owner) (target : PromiseId) (outcome : Except JsValue JsValue), owner ≠ .host →
    (owner = .derived → free target) → holds world → holds (world.settle owner target outcome)
  react : ∀ {world : ReplayWorld H} (target : PromiseId) (reaction : Reaction H (Operation H) JsValue (Resumption H)),
    (∀ resume, reaction = .host resume → resume.Free free ∧ resume.compensates = false) → holds world →
    holds (world.react target reaction)
  enqueue : ∀ {world : ReplayWorld H} (job : ReplayJob H),
    (∀ resume outcome, job = .host resume outcome → resume.Free free ∧ resume.compensates = false) → holds world →
    holds (world.enqueue job)
  opens : ∀ {world after : ReplayWorld H}, holds world → (free world.promises.length → holds after) →
    world.promises.length < after.promises.length → holds after

/-- A property that everything between two releases keeps: promises are made, free ones are settled by others than the context,
waited for, and jobs are added. -/
structure Kept (free : PromiseId → Prop) (holds : ReplayWorld H → Prop) : Prop where
  same : ∀ {world after : ReplayWorld H}, holds world → after.promises = world.promises → after.jobs = world.jobs →
    after.host.fedUpTo = world.host.fedUpTo → after.host.deliveries = world.host.deliveries → holds after
  unplaced : ∀ {world : ReplayWorld H} (promise : ReplayPromise H), promise.tag.completionPosition = none →
    (∀ reaction reactions, promise.status ≠ .pending (reaction :: reactions)) → holds world → holds (world.alloc promise).2
  placed : ∀ {world : ReplayWorld H} (place : Nat) (outcome : Except JsValue JsValue), holds world →
    holds (completedAt place outcome world).1
  settle : ∀ {world : ReplayWorld H} (owner : Owner) (target : PromiseId) (outcome : Except JsValue JsValue), owner ≠ .host →
    (owner = .derived → free target) → holds world → holds (world.settle owner target outcome)
  react : ∀ {world : ReplayWorld H} (target : PromiseId) (reaction : Reaction H (Operation H) JsValue (Resumption H)),
    (∀ resume, reaction = .host resume → resume.Free free) → holds world → holds (world.react target reaction)
  enqueue : ∀ {world : ReplayWorld H} (job : ReplayJob H), (∀ resume outcome, job = .host resume outcome → resume.Free free) →
    holds world → holds (world.enqueue job)
  opens : ∀ {world after : ReplayWorld H}, holds world → (free world.promises.length → holds after) →
    world.promises.length < after.promises.length → holds after

theorem Kept.byCode {free : PromiseId → Prop} {holds : ReplayWorld H → Prop} (kept : Kept free holds) : KeptByCode free holds where
  same before beside := kept.same before beside.promises beside.jobs beside.fedUpTo beside.deliveries
  unplaced := kept.unplaced
  placed := kept.placed
  settle := kept.settle
  react target reaction own := kept.react target reaction fun resume same => (own resume same).1
  enqueue job own := kept.enqueue job fun resume outcome same => (own resume outcome same).1
  opens := kept.opens

theorem Grows.isKept (before : ReplayWorld H) : Kept (fun _ => True) (Grows before) where
  same grows promises jobs _ _ := grows.same promises jobs
  unplaced promise _ _ grows := grows.alloc promise
  placed place outcome grows := grows.completedAt place outcome
  settle owner target outcome other _ grows := grows.settle owner target outcome fun same => absurd same other
  react target reaction _ grows := grows.react target reaction
  enqueue job _ grows := grows.enqueue job
  opens _ goesOn _ := goesOn trivial

end Growth

section Calls

variable {H : Type} {replay : Replay} {before world : ReplayWorld H} {free : PromiseId → Prop}
  {holds : ReplayWorld H → Prop}

theorem KeptByCode.step (kept : KeptByCode free holds) (before : holds world) (cancelled : Bool) (stepType : String) (input : JsValue) :
    holds (step replay cancelled stepType input world).1 := by
  unfold Workflow.step
  dsimp only [issue]
  split
  · next answer =>
      obtain ⟨rfl, -⟩ := Prod.mk.inj answer
      exact kept.same before ⟨rfl, rfl, rfl, rfl, rfl, List.prefix_rfl, .inl rfl⟩
  · next recorded answer =>
      obtain ⟨rfl, -⟩ := Prod.mk.inj answer
      split
      · apply kept.placed
        exact kept.same before ⟨rfl, rfl, rfl, rfl, rfl, List.prefix_rfl, .inl rfl⟩
      · split
        · refine kept.unplaced _ rfl (fun _ _ same => nomatch same) ?_
          exact kept.same before ⟨rfl, rfl, rfl, rfl, rfl, List.prefix_rfl, .inl rfl⟩
        · refine kept.unplaced _ rfl (fun _ _ same => nomatch same) ?_
          cases recorded with
          | true => cases cancelled <;> exact kept.same before ⟨rfl, rfl, rfl, rfl, rfl, List.prefix_rfl, .inl rfl⟩
          | false => cases cancelled <;> exact kept.same before ⟨rfl, rfl, rfl, rfl, rfl, List.prefix_rfl, .inr ⟨_, rfl, rfl⟩⟩

theorem KeptByCode.sleep (kept : KeptByCode free holds) (before : holds world) (cancelled : Bool) (durationMs : JsNumber) :
    holds (sleep replay cancelled durationMs world).1 := by
  unfold Workflow.sleep
  cases durationMs.sleepMs with
  | none =>
    refine kept.unplaced _ rfl (fun _ _ same => nomatch same) ?_
    exact before
  | some duration =>
    dsimp only [issue]
    split
    · next answer =>
        obtain ⟨rfl, -⟩ := Prod.mk.inj answer
        exact kept.same before ⟨rfl, rfl, rfl, rfl, rfl, List.prefix_rfl, .inl rfl⟩
    · next answer =>
        obtain ⟨rfl, -⟩ := Prod.mk.inj answer
        split
        · apply kept.placed
          exact kept.same before ⟨rfl, rfl, rfl, rfl, rfl, List.prefix_rfl, .inl rfl⟩
        · split
          · refine kept.unplaced _ rfl (fun _ _ same => nomatch same) ?_
            exact kept.same before ⟨rfl, rfl, rfl, rfl, rfl, List.prefix_rfl, .inl rfl⟩
          · split
            · refine kept.unplaced _ rfl (fun _ _ same => nomatch same) ?_
              exact kept.same before ⟨rfl, rfl, rfl, rfl, rfl, List.prefix_rfl, .inl rfl⟩
            · split
              · exact kept.same before ⟨rfl, rfl, rfl, rfl, rfl, List.prefix_rfl, .inl rfl⟩
              · refine kept.unplaced _ rfl (fun _ _ same => nomatch same) ?_
                exact kept.same before ⟨rfl, rfl, rfl, rfl, rfl, List.prefix_rfl, .inr ⟨_, rfl, rfl⟩⟩

theorem KeptByCode.waitForSignal (kept : KeptByCode free holds) (before : holds world) (cancelled : Bool) (signalName : String) :
    holds (waitForSignal replay cancelled signalName world).1 := by
  unfold Workflow.waitForSignal
  dsimp only
  split
  · apply kept.placed
    exact kept.same before ⟨rfl, rfl, rfl, rfl, rfl, List.prefix_rfl, .inl rfl⟩
  · split <;>
    · refine kept.unplaced _ rfl (fun _ _ same => nomatch same) ?_
      exact kept.same before ⟨rfl, rfl, rfl, rfl, rfl, List.prefix_rfl, .inl rfl⟩

theorem KeptByCode.startChild (kept : KeptByCode free holds) (before : holds world) (cancelled : Bool) (workflowType : String)
    (input : JsValue) (options : ChildOptions) : holds (startChild replay cancelled workflowType input options world).1 := by
  unfold Workflow.startChild
  dsimp only [issue]
  split
  · exact kept.same before ⟨rfl, rfl, rfl, rfl, rfl, List.prefix_rfl, .inl rfl⟩
  · split
    · next answer =>
        obtain ⟨rfl, -⟩ := Prod.mk.inj answer
        exact kept.same before ⟨rfl, rfl, rfl, rfl, rfl, List.prefix_rfl, .inl rfl⟩
    · next recorded answer =>
        obtain ⟨rfl, -⟩ := Prod.mk.inj answer
        split
        · exact kept.same before ⟨rfl, rfl, rfl, rfl, rfl, List.prefix_rfl, .inl rfl⟩
        · dsimp only
          split
          · apply kept.placed
            cases recorded with
            | true => exact kept.same before ⟨rfl, rfl, rfl, rfl, rfl, List.prefix_rfl, .inl rfl⟩
            | false => exact kept.same before ⟨rfl, rfl, rfl, rfl, rfl, List.prefix_rfl, .inr ⟨_, rfl, rfl⟩⟩
          · split <;>
            · refine kept.unplaced _ rfl (fun _ _ same => nomatch same) ?_
              cases recorded with
              | true => exact kept.same before ⟨rfl, rfl, rfl, rfl, rfl, List.prefix_rfl, .inl rfl⟩
              | false => exact kept.same before ⟨rfl, rfl, rfl, rfl, rfl, List.prefix_rfl, .inr ⟨_, rfl, rfl⟩⟩

theorem KeptByCode.select (kept : KeptByCode free holds) (before : holds world) (branches : List PromiseId) :
    holds (select branches world).1 := by
  unfold Workflow.select
  dsimp only
  split
  · refine kept.opens before (fun own => ?_) ?_
    · exact kept.react _ _ (fun _ same => by cases same; exact ⟨own, rfl⟩)
        (kept.unplaced _ rfl (fun _ _ same => nomatch same) before)
    · refine Nat.lt_of_lt_of_le ?_ (promises_longer (World.react_undisturbed _ _ _).tags)
      simp only [World.alloc, List.length_append, List.length_singleton, Nat.lt_add_one]
  · exact kept.unplaced _ rfl (fun _ _ same => nomatch same) before

theorem KeptByCode.decidePatch (kept : KeptByCode free holds) (before : holds world) (patchId : String) :
    holds (decidePatch replay patchId world).1 := by
  unfold Workflow.decidePatch
  dsimp only [issue]
  split
  · exact kept.same before ⟨rfl, rfl, rfl, rfl, rfl, List.prefix_rfl, .inl rfl⟩
  · split
    · split <;>
      · next answer =>
          obtain ⟨rfl, -⟩ := Prod.mk.inj answer
          exact kept.same before ⟨rfl, rfl, rfl, rfl, rfl, List.prefix_rfl, .inl rfl⟩
    · split
      · exact kept.same before ⟨rfl, rfl, rfl, rfl, rfl, List.prefix_rfl, .inl rfl⟩
      · split
        · next answer =>
            obtain ⟨rfl, -⟩ := Prod.mk.inj answer
            exact kept.same before ⟨rfl, rfl, rfl, rfl, rfl, List.prefix_rfl, .inl rfl⟩
        · next answer =>
            obtain ⟨rfl, -⟩ := Prod.mk.inj answer
            exact kept.same before ⟨rfl, rfl, rfl, rfl, rfl, List.prefix_rfl, .inr ⟨_, rfl, rfl⟩⟩

theorem KeptByCode.now (kept : KeptByCode free holds) (before : holds world) : holds (now replay world).1 := by
  unfold Workflow.now
  dsimp only
  split
  · exact kept.same before ⟨rfl, rfl, rfl, rfl, rfl, List.prefix_rfl, .inl rfl⟩
  · split <;> exact kept.same before ⟨rfl, rfl, rfl, rfl, rfl, List.prefix_rfl, .inr ⟨_, rfl, rfl⟩⟩

theorem KeptByCode.noteChoice (replay : Replay) (kept : KeptByCode free holds) (before : holds world) (running : List (Nat × PromiseId)) :
    holds (noteChoice replay running world) := by
  unfold Workflow.noteChoice
  split
  · exact kept.same before ⟨rfl, rfl, rfl, rfl, rfl, List.prefix_rfl, .inl rfl⟩
  · exact before

theorem Kept.compensationFailed (kept : Kept free holds) (before : holds world) (index : Nat) (reason : JsValue) :
    holds (compensationFailed replay index reason world) := by
  unfold Workflow.compensationFailed
  split
  · exact kept.same before rfl rfl rfl rfl
  · split
    · exact before
    · exact kept.same before rfl rfl rfl rfl

theorem KeptByCode.startTasks {runTask : Nat → ReplayEffect H} (task : ∀ index world, holds world → holds (runTask index world).1)
    (room : Nat) (state : ParallelState H) (_kept : KeptByCode free holds) (before : holds world) :
    holds (startTasks runTask room state world).1 := by
  induction room generalizing state world with
  | zero => exact before
  | succ room ih =>
    simp only [Workflow.startTasks]
    split
    · have ran := task state.next world before
      split
      · next after promise answer =>
          rw [answer] at ran
          exact ih _ ran
      · next after value _ answer =>
          rw [answer] at ran
          exact ran
      · next after thrown answer =>
          rw [answer] at ran
          exact ran
    · exact before

theorem KeptByCode.derived (kept : KeptByCode free holds) (before : holds world) {target : PromiseId} (own : free target)
    (outcome : Except JsValue JsValue) : holds (world.settle .derived target outcome) :=
  kept.settle .derived target outcome (fun same => nomatch same) (fun _ => own) before

/-- A round of the loop is about one promise. -/
theorem startTasks_result (runTask : Nat → ReplayEffect H) (room : Nat) (state later : ParallelState H)
    (answer : (startTasks runTask room state world).2 = .ok later) : later.result = state.result := by
  induction room generalizing state world with
  | zero =>
    cases answer
    rfl
  | succ room ih =>
    rw [Workflow.startTasks] at answer
    split at answer
    · split at answer
      · have same := ih _ answer
        exact same
      · cases answer
      · cases answer
    · cases answer
      rfl

theorem KeptByCode.parallelLoop {runTask : Nat → ReplayEffect H} (task : ∀ index world, holds world → holds (runTask index world).1)
    (state : ParallelState H) (own : free state.result) (kept : KeptByCode free holds) (before : holds world) :
    holds (parallelLoop runTask state world) := by
  unfold Workflow.parallelLoop
  split
  · have started := kept.startTasks task (state.taskCount - state.next) state before
    split
    · next after thrown answer =>
        rw [answer] at started
        exact kept.derived started own _
    · next after later answer =>
        rw [answer] at started
        have same := startTasks_result runTask _ state later (by rw [answer])
        refine kept.enqueue _ (fun _ _ job => ?_) started
        cases job
        refine ⟨?_, rfl⟩
        change free later.result
        rw [same]
        exact own
  · exact kept.derived before own _

theorem longer_isKept (count : Nat) : Kept (fun _ => True) fun world : ReplayWorld H => count ≤ world.promises.length where
  same enough promises _ _ _ := by rwa [promises]
  unplaced promise _ _ enough := by
    simp only [World.alloc, List.length_append]
    omega
  placed {world} place outcome enough :=
    have same : KeepsWaits world world := .same rfl rfl fun _ _ => id
    enough.trans (promises_longer (same.completedAt place outcome).tags)
  settle owner target outcome _ _ enough := enough.trans (promises_longer (World.settle_undisturbed _ _ _ _).tags)
  react target reaction _ enough := enough.trans (promises_longer (World.react_undisturbed _ _ _).tags)
  enqueue _ _ enough := enough
  opens _ goesOn _ := goesOn trivial

/-- A call of the shared loop makes its promise. -/
theorem runParallel_longer {runTask : Nat → ReplayEffect H}
    (grown : ∀ index world, world.promises.length ≤ (runTask index world).1.promises.length) (tasks : Nat → WorkflowCode H)
    (taskCount : Nat) (concurrency : Option JsNumber) (mode : ParallelMode) (world : ReplayWorld H) :
    world.promises.length < (runParallel runTask tasks taskCount concurrency mode world).2.promises.length := by
  have allocated : world.promises.length + 1 ≤ (world.alloc ⟨.derived, (default : WaitTag), .pending []⟩).2.promises.length := by
    simp only [World.alloc, List.length_append, List.length_singleton, Nat.le_refl]
  have kept : KeptByCode (fun _ => True) fun later : ReplayWorld H => world.promises.length + 1 ≤ later.promises.length :=
    (longer_isKept _).byCode
  unfold Workflow.runParallel
  dsimp only
  split
  · exact kept.derived allocated trivial _
  · exact kept.parallelLoop (fun index _ enough => enough.trans (grown index _)) _ trivial allocated

theorem KeptByCode.runParallel {runTask : Nat → ReplayEffect H} (task : ∀ index world, holds world → holds (runTask index world).1)
    (grown : ∀ index world, world.promises.length ≤ (runTask index world).1.promises.length) (tasks : Nat → WorkflowCode H)
    (taskCount : Nat) (concurrency : Option JsNumber) (mode : ParallelMode) (kept : KeptByCode free holds) (before : holds world) :
    holds (runParallel runTask tasks taskCount concurrency mode world).2 := by
  refine kept.opens before (fun own => ?_) (runParallel_longer grown tasks taskCount concurrency mode world)
  unfold Workflow.runParallel
  have allocated := kept.unplaced ⟨.derived, (default : WaitTag), .pending []⟩ rfl (fun _ _ same => nomatch same) before
  dsimp only
  split
  · exact kept.derived allocated own _
  · exact kept.parallelLoop task _ own allocated

/-- Every call of the context keeps the property. -/
theorem KeptByCode.call (operation : Operation H) (callbacks : Nat → WorkflowCode H) {running : Nat → ReplayEffect H}
    (task : ∀ index world, holds world → holds (running index world).1)
    (grown : ∀ index world, world.promises.length ≤ (running index world).1.promises.length)
    (kept : KeptByCode free holds) (before : holds world) : holds (contextCall replay operation callbacks running world).1 := by
  unfold contextCall
  dsimp only
  split
  · exact kept.step before _ _ _
  · exact kept.sleep before _ _
  · exact kept.waitForSignal before _ _
  · exact kept.select before _
  · exact kept.same before ⟨rfl, rfl, rfl, rfl, rfl, List.prefix_rfl, .inl rfl⟩
  · exact kept.same before ⟨rfl, rfl, rfl, rfl, rfl, List.prefix_append _ _, .inl rfl⟩
  · exact kept.startChild before _ _ _ _
  · exact kept.startChild before _ _ _ _
  · have allocated := kept.unplaced ⟨.derived, (default : WaitTag), .pending []⟩ rfl (by rintro _ _ ⟨⟩) before
    refine kept.opens before (fun own => ?_) ?_
    · exact kept.react _ _ (fun _ same => by cases same; exact ⟨own, rfl⟩) (kept.runParallel task grown callbacks _ _ .all allocated)
    · refine Nat.lt_of_lt_of_le ?_ (promises_longer (World.react_undisturbed _ _ _).tags)
      refine Nat.lt_trans ?_ (runParallel_longer grown callbacks _ _ .all _)
      simp only [World.alloc, List.length_append, List.length_singleton, Nat.lt_add_one]
  · exact kept.runParallel task grown callbacks _ _ _ before
  · unfold continueAsNew
    split
    · exact kept.unplaced _ rfl (by rintro _ _ ⟨⟩) before
    · refine kept.unplaced _ rfl (by rintro _ _ ⟨⟩) ?_
      exact kept.same before ⟨rfl, rfl, rfl, rfl, rfl, List.prefix_rfl, .inl rfl⟩
  · exact kept.decidePatch before _
  · exact kept.decidePatch before _
  · exact kept.now before
  · exact kept.same before ⟨rfl, rfl, rfl, rfl, rfl, List.prefix_rfl, .inl rfl⟩
  · exact kept.same before ⟨rfl, rfl, rfl, rfl, rfl, List.prefix_rfl, .inl rfl⟩

theorem Kept.runCompensations {running : WorkflowCode H → ReplayEffect H} (task : ∀ body world, holds world → holds (running body world).1)
    (remaining : Nat) (kept : Kept free holds) (before : holds world) : holds (runCompensations replay running remaining world) := by
  induction remaining generalizing world with
  | zero => exact kept.same before rfl rfl rfl rfl
  | succ index ih =>
    simp only [Workflow.runCompensations]
    split
    · exact ih before
    · next compensation _ =>
        have ran := task compensation world before
        split
        · next after outcome answer =>
            rw [answer] at ran
            exact kept.react _ _ (fun _ same => by cases same; trivial) ran
        · next after value _ answer =>
            rw [answer] at ran
            exact kept.enqueue _ (fun _ _ same => by cases same; trivial) ran
        · next after reason answer =>
            rw [answer] at ran
            exact ih (kept.compensationFailed ran _ _)

/-- What goes on with the calls of code keeps the property too. -/
theorem KeptByCode.resume {running : WorkflowCode H → ReplayEffect H}
    (task : ∀ body world, holds world → holds (running body world).1) (resume : Resumption H)
    (own : resume.Free free) (plain : resume.compensates = false) (outcome : Except JsValue JsValue)
    (kept : KeptByCode free holds) (before : holds world) : holds (resumption replay resume outcome running world) := by
  cases resume with
  | handlerSettled => exact kept.same before ⟨rfl, rfl, rfl, rfl, rfl, List.prefix_rfl, .inl rfl⟩
  | chosen state =>
    simp only [resumption]
    split
    · exact before
    · exact kept.react _ _ (fun _ same => by cases same; exact ⟨own, rfl⟩) (kept.noteChoice _ before _)
  | taskSettled state index =>
    simp only [resumption]
    split
    · exact kept.derived before own _
    · exact kept.parallelLoop (fun task' => task (state.tasks task')) _ own before
  | allDone result => exact kept.derived before own _
  | selected result winner => exact kept.derived before own _
  | compensated remaining => cases plain

theorem Kept.resume {running : WorkflowCode H → ReplayEffect H}
    (task : ∀ body world, holds world → holds (running body world).1) (resume : Resumption H)
    (own : resume.Free free) (outcome : Except JsValue JsValue) (kept : Kept free holds) (before : holds world) :
    holds (resumption replay resume outcome running world) := by
  cases resume with
  | compensated remaining =>
    simp only [resumption]
    apply kept.runCompensations task
    cases outcome with
    | ok value => exact before
    | error reason => exact kept.compensationFailed before _ _
  | handlerSettled | chosen | taskSettled | allDone | selected => exact kept.byCode.resume task _ own rfl outcome before

/-- Any code keeps the property. -/
theorem KeptByCode.run (replay : Replay) (code : WorkflowCode H) (kept : KeptByCode free holds) (before : holds world) :
    holds (EventLoop.run (replayHost H replay) code world).1 := by
  induction code generalizing world with
  | finish completion => exact before
  | read next ih => exact ih world.heap before
  | write heap next ih =>
    apply ih
    exact kept.same before ⟨rfl, rfl, rfl, rfl, rfl, List.prefix_rfl, .inl rfl⟩
  | promise next ih => exact ih _ (kept.unplaced _ rfl (fun _ _ same => nomatch same) before)
  | settle target outcome next ih =>
    exact ih (kept.settle .code target outcome (fun same => nomatch same) (fun same => nomatch same) before)
  | react target reaction next _ ih => exact ih (kept.react _ _ (fun _ same => nomatch same) before)
  | call operation callbacks next callbacksHold ih =>
    exact ih _ (kept.call operation callbacks (fun index _ held => callbacksHold index held)
    (fun index world => run_longer replay (callbacks index) world) before)

/-- Any job keeps the property, once it is off the queue. -/
theorem Kept.perform (replay : Replay) (job : ReplayJob H) (own : ∀ resume outcome, job = .host resume outcome → resume.Free free)
    (kept : Kept free holds) (before : holds world) : holds (EventLoop.perform (replayHost H replay) job world) := by
  cases job with
  | code body => exact kept.byCode.run replay body before
  | host resume outcome =>
    exact kept.resume (fun body _ held => kept.byCode.run replay body held) resume (own resume outcome rfl) outcome before

theorem Grows.derived (grows : Grows before world) (target : PromiseId) (outcome : Except JsValue JsValue) :
    Grows before (world.settle .derived target outcome) := (Grows.isKept before).byCode.derived grows trivial outcome

theorem Grows.noteChoice (grows : Grows before world) (replay : Replay) (running : List (Nat × PromiseId)) :
    Grows before (Workflow.noteChoice replay running world) := (Grows.isKept before).byCode.noteChoice replay grows running

theorem Grows.run (grows : Grows before world) (replay : Replay) (code : WorkflowCode H) :
    Grows before (EventLoop.run (replayHost H replay) code world).1 := (Grows.isKept before).byCode.run replay code grows

theorem Grows.perform (grows : Grows before world) (replay : Replay) (job : ReplayJob H) :
    Grows before (EventLoop.perform (replayHost H replay) job world) :=
  (Grows.isKept before).perform replay job (fun resume _ _ => resume.free_all) grows

/-- A release settles waits at their places. -/
theorem Grows.release {place : Nat} (tagged : Tagged world) : Grows world (release place world) := by
  unfold Workflow.release
  dsimp only
  have due : ∀ delivery ∈ world.host.deliveries.filter fun delivery => delivery.1 == place,
      (world.tagOf delivery.2.1).bind WaitTag.completionPosition ≠ none := by
    intro delivery listed
    rw [tagged delivery (List.mem_filter.mp listed).1]
    exact fun same => nomatch same
  have fed : Grows world (update (fun state => { state with
      fedUpTo := place
      deliveries := state.deliveries.filter fun delivery => delivery.1 != place }) world) := (Grows.refl world).same rfl rfl
  revert due fed
  generalize update (fun state => { state with
    fedUpTo := place
    deliveries := state.deliveries.filter fun delivery => delivery.1 != place }) world = start
  generalize (world.host.deliveries.filter fun delivery => delivery.1 == place) = waits
  intro due fed
  induction waits generalizing start with
  | nil => exact fed
  | cons delivery rest ih =>
    rw [List.foldl_cons]
    refine ih _ (fun other listed => due other (List.mem_cons_of_mem _ listed)) (fed.settle .host _ _ fun _ promise held unplaced => ?_)
    apply due delivery List.mem_cons_self
    cases known : world.promises[delivery.2.1]? with
    | none => simp [World.tagOf, known]
    | some first =>
      obtain ⟨_, held', moves⟩ := fed.promises _ first known
      cases held.symm.trans held'
      simp only [World.tagOf, known, Option.map_some, Option.bind_some]
      rw [← moves.tag]
      exact unplaced

end Calls

end DurableExecution.Workflow

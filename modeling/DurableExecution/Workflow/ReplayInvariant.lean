import DurableExecution.Workflow.DecisionLoop

/-
This file proves once that a property of a replay survives everything the engine does
with it, from the few calls that touch the ledger of the replay.
-/

namespace DurableExecution.Workflow

open EventLoop

/-- The part of a replay that decides what it issues, records and waits for. -/
structure Ledger where
  matcher : CommandMatcher
  newCommands : List WorkflowCommand
  patchDecisions : List (String × Bool)
  consultedPatches : List String
  stepSequence : Nat
  timerSequence : Nat
  childSequence : Nat
  timeCalls : Nat
  fedUpTo : Int
  deliveries : List (Nat × PromiseId × Except JsValue JsValue)
  rejectedWaits : List Wait
  unrepresentableTimers : List String
  cancelledChoices : Nat

section Frames

variable {H : Type}

def ReplayState.ledger (state : ReplayState H) : Ledger where
  matcher := state.matcher
  newCommands := state.newCommands
  patchDecisions := state.patchDecisions
  consultedPatches := state.consultedPatches
  stepSequence := state.stepSequence
  timerSequence := state.timerSequence
  childSequence := state.childSequence
  timeCalls := state.timeCalls
  fedUpTo := state.fedUpTo
  deliveries := state.deliveries
  rejectedWaits := state.rejectedWaits
  unrepresentableTimers := state.unrepresentableTimers
  cancelledChoices := state.cancelledChoices

/-- The ledger is as before and no promise lost or changed its tag. -/
structure SameLedger (before after : ReplayWorld H) : Prop where
  ledger : after.host.ledger = before.host.ledger
  tags : ∀ target tag, before.tagOf target = some tag → after.tagOf target = some tag

theorem SameLedger.trans {first second third : ReplayWorld H}
    (one : SameLedger first second) (two : SameLedger second third) : SameLedger first third :=
  ⟨two.ledger.trans one.ledger, fun target tag known => two.tags target tag (one.tags target tag known)⟩

theorem SameLedger.ofUndisturbed {before after : ReplayWorld H} (same : Undisturbed before after) :
    SameLedger before after := ⟨congrArg ReplayState.ledger same.host, same.tags⟩

/-- The counts of waits for signals are as before, too. -/
structure SameCalls (before after : ReplayWorld H) : Prop extends SameLedger before after where
  signals : after.host.signalSequences = before.host.signalSequences

theorem SameCalls.trans {first second third : ReplayWorld H}
    (one : SameCalls first second) (two : SameCalls second third) : SameCalls first third :=
  ⟨one.toSameLedger.trans two.toSameLedger, two.signals.trans one.signals⟩

theorem SameCalls.ofUndisturbed {before after : ReplayWorld H} (same : Undisturbed before after) :
    SameCalls before after := ⟨.ofUndisturbed same, congrArg ReplayState.signalSequences same.host⟩

theorem SameCalls.neverSettles (world : ReplayWorld H) : SameCalls world (neverSettles world).1 :=
  .ofUndisturbed (world.alloc_undisturbed _)

theorem SameCalls.rejectedWith (error : JsValue) (world : ReplayWorld H) : SameCalls world (rejectedWith error world).1 :=
  .ofUndisturbed (world.alloc_undisturbed _)

theorem SameCalls.select (branches : List PromiseId) (world : ReplayWorld H) : SameCalls world (select branches world).1 := by
  unfold Workflow.select
  have allocated := SameCalls.ofUndisturbed
    (world.alloc_undisturbed ⟨.derived, (default : WaitTag), .pending []⟩)
  split
  · exact allocated.trans (.ofUndisturbed (World.react_undisturbed _ _ _))
  · exact allocated

end Frames

section Invariants

variable {H : Type}

/-- A call is cancelled only in a replay whose history asks for it. -/
def Replay.Allows (replay : Replay) (cancelled : Bool) : Prop :=
  cancelled = true → cancelRequested replay.history = true

/-- A property of a replay that every call and resumption keeps: it speaks of the ledger
and the tags, and the operations that touch them keep it. -/
structure ReplayInvariant (replay : Replay) (holds : ReplayWorld H → Prop) : Prop where
  frame : ∀ before after, SameLedger before after → holds before → holds after
  step : ∀ cancelled stepType input world, replay.Allows cancelled → holds world →
    holds (step replay cancelled stepType input world).1
  sleep : ∀ cancelled durationMs world, replay.Allows cancelled → holds world →
    holds (sleep replay cancelled durationMs world).1
  waitForSignal : ∀ cancelled signalName world, replay.Allows cancelled → holds world →
    holds (waitForSignal replay cancelled signalName world).1
  startChild : ∀ cancelled workflowType input options world, replay.Allows cancelled → holds world →
    holds (startChild replay cancelled workflowType input options world).1
  decidePatch : ∀ patchId world, holds world → holds (decidePatch replay patchId world).1
  now : ∀ world, holds world → holds (now replay world).1
  noteChoice : ∀ running world, holds world → holds (noteChoice replay running world)
  compensationFailed : ∀ index reason world, holds world →
    holds (compensationFailed replay index reason world)

/-- A property of a replay that every call and resumption keeps: it speaks of the ledger,
the tags and the counts of waits for signals, and the operations that touch them keep it. -/
structure ReplayWalk (replay : Replay) (holds : ReplayWorld H → Prop) : Prop where
  frame : ∀ before after, SameCalls before after → holds before → holds after
  step : ∀ cancelled stepType input world, replay.Allows cancelled → holds world →
    holds (step replay cancelled stepType input world).1
  sleep : ∀ cancelled durationMs world, replay.Allows cancelled → holds world →
    holds (sleep replay cancelled durationMs world).1
  waitForSignal : ∀ cancelled signalName world, replay.Allows cancelled → holds world →
    holds (waitForSignal replay cancelled signalName world).1
  startChild : ∀ cancelled workflowType input options world, replay.Allows cancelled → holds world →
    holds (startChild replay cancelled workflowType input options world).1
  decidePatch : ∀ patchId world, holds world → holds (decidePatch replay patchId world).1
  now : ∀ world, holds world → holds (now replay world).1
  noteChoice : ∀ running world, holds world → holds (noteChoice replay running world)
  compensationFailed : ∀ index reason world, holds world →
    holds (compensationFailed replay index reason world)

/-- A property of the ledger and the tags does not see the counts. -/
theorem ReplayInvariant.toWalk {replay : Replay} {holds : ReplayWorld H → Prop} (invariant : ReplayInvariant replay holds) :
    ReplayWalk replay holds :=
  { invariant with frame := fun before after same => invariant.frame before after same.toSameLedger }

namespace ReplayWalk

variable {replay : Replay} {holds : ReplayWorld H → Prop}

theorem startTasks (runTask : Nat → ReplayEffect H) (task : ∀ index world, holds world → holds (runTask index world).1)
    (room : Nat) (state : ParallelState H) (world : ReplayWorld H) (before : holds world) :
    holds (startTasks runTask room state world).1 := by
  induction room generalizing state world with
  | zero => exact before
  | succ room ih =>
    simp only [Workflow.startTasks]
    split
    · have ran := task state.next world before
      split
      · next after promise answer =>
          rw [answer] at ran
          exact ih _ after ran
      · next after value _ answer =>
          rw [answer] at ran
          exact ran
      · next after thrown answer =>
          rw [answer] at ran
          exact ran
    · exact before

theorem parallelLoop (walk : ReplayWalk replay holds) (runTask : Nat → ReplayEffect H)
    (task : ∀ index world, holds world → holds (runTask index world).1)
    (state : ParallelState H) (world : ReplayWorld H) (before : holds world) : holds (parallelLoop runTask state world) := by
  unfold Workflow.parallelLoop
  split
  · have started := ReplayWalk.startTasks runTask task (state.taskCount - state.next) state world before
    split
    · next after thrown answer =>
        rw [answer] at started
        exact walk.frame _ _ (.ofUndisturbed (World.settle_undisturbed _ _ _ _)) started
    · next after later answer =>
        rw [answer] at started
        exact walk.frame _ _ (.ofUndisturbed (World.enqueue_undisturbed _ _)) started
  · exact walk.frame _ _ (.ofUndisturbed (World.settle_undisturbed _ _ _ _)) before

theorem runParallel (walk : ReplayWalk replay holds) (runTask : Nat → ReplayEffect H)
    (task : ∀ index world, holds world → holds (runTask index world).1) (tasks : Nat → WorkflowCode H)
    (taskCount : Nat) (concurrency : Option JsNumber) (mode : ParallelMode) (world : ReplayWorld H)
    (before : holds world) : holds (runParallel runTask tasks taskCount concurrency mode world).2 := by
  unfold Workflow.runParallel
  have allocated := walk.frame _ _ (.ofUndisturbed
    (world.alloc_undisturbed ⟨.derived, (default : WaitTag), .pending []⟩)) before
  dsimp only
  split
  · exact walk.frame _ _ (.ofUndisturbed (World.settle_undisturbed _ _ _ _)) allocated
  · exact walk.parallelLoop runTask task _ _ allocated

theorem all (walk : ReplayWalk replay holds) (runTask : Nat → ReplayEffect H)
    (task : ∀ index world, holds world → holds (runTask index world).1) (tasks : Nat → WorkflowCode H)
    (taskCount : Nat) (concurrency : Option JsNumber) (world : ReplayWorld H) (before : holds world) :
    holds (all runTask tasks taskCount concurrency world).1 := by
  have allocated := walk.frame _ _ (.ofUndisturbed
    (world.alloc_undisturbed ⟨.derived, (default : WaitTag), .pending []⟩)) before
  exact walk.frame _ _ (.ofUndisturbed (World.react_undisturbed _ _ _))
    (walk.runParallel runTask task tasks taskCount concurrency .all _ allocated)

theorem call (walk : ReplayWalk replay holds) (operation : Operation H)
    (callbacks : Nat → WorkflowCode H) (running : Nat → ReplayEffect H) (world : ReplayWorld H)
    (task : ∀ index world, holds world → holds (running index world).1) (before : holds world) :
    holds (contextCall replay operation callbacks running world).1 := by
  unfold contextCall
  dsimp only
  have allowed : replay.Allows (operation.context == .workflow && cancelRequested replay.history) :=
    fun cancelled => (Bool.and_eq_true_iff.mp cancelled).2
  split
  · exact walk.step _ _ _ _ allowed before
  · exact walk.sleep _ _ _ allowed before
  · exact walk.waitForSignal _ _ _ allowed before
  · exact walk.frame _ _ (.select _ _) before
  · exact walk.frame world _ ⟨⟨rfl, fun _ _ => id⟩, rfl⟩ before
  · exact walk.frame world _ ⟨⟨rfl, fun _ _ => id⟩, rfl⟩ before
  · exact walk.startChild _ _ _ _ _ allowed before
  · exact walk.startChild _ _ _ _ _ allowed before
  · exact walk.all running task callbacks _ _ _ before
  · exact walk.runParallel running task callbacks _ _ _ _ before
  · unfold continueAsNew
    split
    · exact walk.frame _ _ (.rejectedWith _ _) before
    · refine walk.frame _ _ (.neverSettles _) ?_
      exact walk.frame world _ ⟨⟨rfl, fun _ _ => id⟩, rfl⟩ before
  · exact walk.decidePatch _ _ before
  · exact walk.decidePatch _ _ before
  · exact walk.now _ before
  · exact walk.frame world _ ⟨⟨rfl, fun _ _ => id⟩, rfl⟩ before
  · exact walk.frame world _ ⟨⟨rfl, fun _ _ => id⟩, rfl⟩ before

theorem runCompensations (walk : ReplayWalk replay holds) (running : WorkflowCode H → ReplayEffect H)
    (task : ∀ body world, holds world → holds (running body world).1) (remaining : Nat) (world : ReplayWorld H) (before : holds world) :
    holds (runCompensations replay running remaining world) := by
  induction remaining generalizing world with
  | zero => exact walk.frame world _ ⟨⟨rfl, fun _ _ => id⟩, rfl⟩ before
  | succ index ih =>
    simp only [Workflow.runCompensations]
    split
    · exact ih world before
    · next compensation _ =>
        have ran := task compensation world before
        split
        · next after outcome answer =>
            rw [answer] at ran
            exact walk.frame _ _ (.ofUndisturbed (World.react_undisturbed _ _ _)) ran
        · next after value _ answer =>
            rw [answer] at ran
            exact walk.frame _ _ (.ofUndisturbed (World.enqueue_undisturbed _ _)) ran
        · next after reason answer =>
            rw [answer] at ran
            exact ih _ (walk.compensationFailed _ _ _ ran)

theorem resume (walk : ReplayWalk replay holds) (resume : Resumption H)
    (outcome : Except JsValue JsValue) (running : WorkflowCode H → ReplayEffect H)
    (world : ReplayWorld H) (task : ∀ body world, holds world → holds (running body world).1)
    (before : holds world) : holds (resumption replay resume outcome running world) := by
  cases resume with
  | handlerSettled => exact walk.frame world _ ⟨⟨rfl, fun _ _ => id⟩, rfl⟩ before
  | chosen state =>
    simp only [resumption]
    split
    · exact before
    · exact walk.frame _ _ (.ofUndisturbed (World.react_undisturbed _ _ _))
        (walk.noteChoice _ _ before)
  | taskSettled state index =>
    simp only [resumption]
    split
    · exact walk.frame _ _ (.ofUndisturbed (World.settle_undisturbed _ _ _ _)) before
    · exact walk.parallelLoop _ (fun task' => task (state.tasks task')) _ _ before
  | allDone result =>
    exact walk.frame _ _ (.ofUndisturbed (World.settle_undisturbed _ _ _ _)) before
  | selected result winner =>
    exact walk.frame _ _ (.ofUndisturbed (World.settle_undisturbed _ _ _ _)) before
  | compensated remaining =>
    simp only [resumption]
    apply walk.runCompensations running task
    cases outcome with
    | ok value => exact before
    | error reason => exact walk.compensationFailed _ _ _ before

/-- The host of a replay keeps the property. -/
theorem preserves (walk : ReplayWalk replay holds) : (replayHost H replay).Preserves holds where
  frame before after same := walk.frame before after (.ofUndisturbed same)
  call operation callbacks running world task := walk.call operation callbacks running world task
  resume continuation outcome running world task :=
    walk.resume continuation outcome running world task

end ReplayWalk

theorem ReplayInvariant.preserves {replay : Replay} {holds : ReplayWorld H → Prop} (invariant : ReplayInvariant replay holds) :
    (replayHost H replay).Preserves holds :=
  invariant.toWalk.preserves

end Invariants

end DurableExecution.Workflow

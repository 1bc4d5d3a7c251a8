import DurableExecution.Workflow.CancelledReplay
import DurableExecution.Workflow.Integrity

/-
This file shows when a cancelled replay starts its compensations: nothing but the end of the first run over the
history starts them, and they do not start while the handler waits for a step that is running.
-/

namespace DurableExecution.Workflow

open EventLoop

section Stages

variable {H : Type}

/-- The resumption goes on with the compensations below one of them. -/
def Resumption.awaits (index : Nat) : Resumption H → Bool
  | .compensated remaining => decide (remaining = index)
  | .chosen _ | .taskSettled _ _ | .allDone _ | .selected _ _ | .handlerSettled => false

/-- Where a replay is with its compensations: how many are known, which one it awaits, whether all are done, and which
commands it found that are not the code's. -/
structure Stage (count : Nat) (awaited : Option Nat) (done : Bool) (records : List WorkflowCommand) (world : ReplayWorld H) : Prop where
  registered : count ≤ world.host.compensations.length
  awaits : ∀ index, goingOn (Resumption.awaits index) world = if awaited = some index then 1 else 0
  compensated : world.host.compensated = done
  records : world.host.newCommands.filter (fun command => !command.ofCode) = records

variable {replay : Replay} {world after : ReplayWorld H} {count : Nat} {awaited : Option Nat} {done : Bool}
  {records : List WorkflowCommand} {job : ReplayJob H} {jobs : List (ReplayJob H)}

theorem Resumption.awaits_plain {resume : Resumption H} (plain : resume.compensates = false) (index : Nat) :
    resume.awaits index = false := by
  cases resume with
  | compensated remaining => cases plain
  | _ => rfl

theorem Resumption.plain_of_awaits {resume : Resumption H} (none' : ∀ index, resume.awaits index = false) : resume.compensates = false := by
  cases resume with
  | compensated remaining => exact absurd rfl (of_decide_eq_false (none' remaining))
  | _ => rfl

theorem Stage.moved (stage : Stage count awaited done records world) (host : after.host = world.host)
    (same : ∀ index, goingOn (Resumption.awaits index) after = goingOn (Resumption.awaits index) world) :
    Stage count awaited done records after where
  registered := by rw [host]; exact stage.registered
  awaits index := (same index).trans (stage.awaits index)
  compensated := by rw [host]; exact stage.compensated
  records := by rw [host]; exact stage.records

/-- No call of a context goes on with the compensations, and none finds a command that is not the code's. -/
theorem Stage.isKept (count : Nat) (awaited : Option Nat) (done : Bool) (records : List WorkflowCommand) :
    KeptByCode (fun _ => True) (Stage (H := H) count awaited done records) where
  same {world after} stage beside := by
    refine ⟨stage.registered.trans beside.compensations.length_le, fun index => ?_, beside.compensated.trans stage.compensated, ?_⟩
    · rw [← stage.awaits index]
      unfold goingOn
      rw [beside.promises, beside.jobs]
    · rcases beside.commands with same | ⟨command, plain, same⟩
      · rw [same]
        exact stage.records
      · rw [same, List.filter_append, List.filter_cons_of_neg (by rw [plain]; exact Bool.false_ne_true), List.filter_nil,
          List.append_nil]
        exact stage.records
  unplaced {world} promise _ idle stage := stage.moved rfl fun index => goingOn_alloc world.host (promiseCount_idle idle)
  placed {world} place outcome stage := by
    have same : (completedAt place outcome world).1.host.compensations = world.host.compensations ∧
        (completedAt place outcome world).1.host.compensated = world.host.compensated ∧
          (completedAt place outcome world).1.host.newCommands = world.host.newCommands := by
      unfold completedAt
      dsimp only
      split <;> exact ⟨rfl, rfl, rfl⟩
    obtain ⟨compensations, compensated, commands⟩ := same
    exact ⟨by rw [compensations]; exact stage.registered, fun index => (goingOn_completedAt place outcome).trans (stage.awaits index),
      compensated.trans stage.compensated, by rw [commands]; exact stage.records⟩
  settle owner target outcome _ _ stage := stage.moved (World.settle_host _ _ _ _) fun index => goingOn_settle owner target outcome
  react target reaction plain stage := by
    refine stage.moved (World.react_host _ _ _) fun index => goingOn_react target ?_
    cases reaction with
    | code body => rfl
    | host resume => exact Resumption.awaits_plain (plain resume rfl).2 index
  enqueue job plain stage := by
    refine stage.moved rfl fun index => goingOn_enqueue ?_
    cases job with
    | code body => rfl
    | host resume outcome => exact Resumption.awaits_plain (plain resume outcome rfl).2 index
  opens _ goesOn _ := goesOn trivial

theorem Stage.pop (stage : Stage count awaited done records world) (queued : world.jobs = job :: jobs)
    (other : ∀ index, jobIs (Resumption.awaits index) job = false) :
    Stage count awaited done records { world with jobs := jobs } := by
  refine stage.moved rfl fun index => ?_
  have total := goingOn_popped queued (Resumption.awaits index)
  rw [other index, if_neg Bool.false_ne_true] at total
  exact total.symm

/-- A job that goes on with no compensation keeps the stage. -/
theorem Stage.perform (replay : Replay) (stage : Stage count awaited done records world) (queued : world.jobs = job :: jobs)
    (other : ∀ index, jobIs (Resumption.awaits index) job = false) :
    Stage count awaited done records (EventLoop.perform (replayHost H replay) job { world with jobs := jobs }) := by
  have popped := stage.pop queued other
  have kept := Stage.isKept (H := H) count awaited done records
  cases job with
  | code body => exact kept.run replay body popped
  | host resume outcome =>
    exact kept.resume (fun body _ held => kept.run replay body held) resume resume.free_all (Resumption.plain_of_awaits other)
      outcome popped

theorem Stage.release (stage : Stage count awaited done records world) (next : Nat) :
    Stage count awaited done records (release next world) := by
  unfold Workflow.release
  dsimp only
  generalize (world.host.deliveries.filter fun delivery => delivery.1 == next) = due
  have fed : Stage count awaited done records (update (fun state => { state with
      fedUpTo := next
      deliveries := state.deliveries.filter fun delivery => delivery.1 != next }) world) :=
    ⟨stage.registered, stage.awaits, stage.compensated, stage.records⟩
  revert fed
  generalize update (fun state => { state with
    fedUpTo := next
    deliveries := state.deliveries.filter fun delivery => delivery.1 != next }) world = start
  intro fed
  induction due generalizing start with
  | nil => exact fed
  | cons delivery rest ih =>
    rw [List.foldl_cons]
    exact ih _ (fed.moved (World.settle_host _ _ _ _) fun index => goingOn_settle _ _ _)

/-- As long as no compensation is awaited, none goes on, by induction on the jobs. -/
theorem Stage.performs {trace : List (ReplayJob H)} (stage : Stage count none done records world)
    (performs : Performs replay world trace after) : Stage count none done records after := by
  induction performs with
  | done => exact stage
  | @job world final job jobs trace queued onward ih =>
    refine ih (stage.perform replay queued fun index => ?_)
    have total := goingOn_popped queued (Resumption.awaits index)
    have alone := stage.awaits index
    rw [if_neg (fun same => nomatch same)] at alone
    cases goes : jobIs (Resumption.awaits index) job with
    | false => rfl
    | true =>
      rw [goes, if_pos rfl] at total
      omega
  | feed quiet due onward ih => exact ih (stage.release _)

end Stages

section Waiting

variable {H : Type} {replay : Replay} {handler : WorkflowHandler H} {input : JsValue} {quiet : ReplayWorld H}

/-- Where the handler ran dry, no compensation was started. -/
theorem Replayed.stage (stopped : Replayed replay handler input quiet) : Stage 0 none false [] quiet := by
  have kept := Stage.isKept (H := H) 0 none false []
  have start : Stage 0 none false [] (initialWorld handler replay.history) := ⟨Nat.zero_le _, fun _ => rfl, rfl, rfl⟩
  have started : Stage 0 none false [] stopped.started := by
    have ran := kept.run replay (handler.body input) start
    rw [show EventLoop.run (replayHost H replay) (handler.body input) (initialWorld handler replay.history) =
      (stopped.started, .ok (.promise stopped.result)) from stopped.begins] at ran
    exact ran
  obtain ⟨trace, performs, -⟩ := stopped.performs
  exact (kept.react _ _ (fun _ same => by cases same; exact ⟨trivial, rfl⟩) started).performs performs

/-- A replay goes on from where the handler ran dry: with the compensations if they are due. -/
theorem Replayed.continues (stopped : Replayed replay handler input quiet) {fuel : Nat} {final : ReplayWorld H}
    (replayed : replayHistory fuel replay handler input = some (.ok final)) :
    if compensationsDue replay quiet then settle replay fuel (startCompensations replay quiet) = some final else final = quiet := by
  unfold replayHistory at replayed
  rw [stopped.begins] at replayed
  obtain ⟨quiet', settled, answer⟩ := Option.bind_eq_some_iff.mp replayed
  obtain ⟨first, drained, feeds⟩ := settle_parts replay fuel _ _ settled
  obtain rfl := drain_unique _ _ _ _ _ _ stopped.drained drained
  obtain rfl := stopped.feeds.unique feeds
  split at answer
  · next due =>
      obtain ⟨other, goes, same⟩ := Option.map_eq_some_iff.mp answer
      cases same
      rw [if_pos due]
      exact goes
  · next waits =>
      cases answer
      rw [if_neg waits]

/-- A decision that is not refused is what the replay concludes. -/
theorem decision_concluded {fuel : Nat} {decision : Decision} (decided : runDecisionLoop fuel replay handler input = some (.ok decision)) :
    ∃ final, replayHistory fuel replay handler input = some (.ok final) ∧ decision.outcome = (conclude replay final).1 ∧
      decision.commands = (conclude replay final).2 := by
  obtain ⟨outcome, replayed, same⟩ := Option.map_eq_some_iff.mp decided
  cases outcome with
  | error thrown => cases same
  | ok final =>
    refine ⟨final, replayed, ?_⟩
    have taken : decideFrom replay final = .ok decision := same
    unfold decideFrom at taken
    split at taken
    · cases taken
    · split at taken
      · cases taken
      · split at taken
        · cases taken
        · cases taken
          exact ⟨rfl, rfl⟩

/-- A step that was scheduled before the cancellation was requested and that has no result in the log. -/
def RunningAtCancellation (history : List WorkflowEvent) (stepId : String) : Prop :=
  (∃ before after reason stepType input, history = before ++ .cancelRequested reason :: after ∧
    .stepScheduled stepId stepType input ∈ before ∧ cancelRequested before = false) ∧
  ∀ stepType, nthOutcome (stepOutcome stepId stepType) 0 0 history = none

/-- The decision is not that the run is cancelled, and all of its commands are the handler's: they were there when
the handler ran dry, before any compensation. -/
def CompensationsWait (fuel : Nat) (replay : Replay) (handler : WorkflowHandler H) (input : JsValue) : Prop :=
  ∀ decision, runDecisionLoop fuel replay handler input = some (.ok decision) → decision.outcome ≠ .cancelled ∧
    ∃ quiet, Nonempty (Replayed replay handler input quiet) ∧ decision.commands = quiet.host.newCommands

/-- A replay that ends has a world in which the handler ran dry. -/
theorem replayHistory_quiet {fuel : Nat} {final : ReplayWorld H} (replayed : replayHistory fuel replay handler input = some (.ok final)) :
    ∃ quiet, Nonempty (Replayed replay handler input quiet) := by
  unfold replayHistory at replayed
  split at replayed
  · cases replayed
  · next started result begins =>
      obtain ⟨quiet, settled, -⟩ := Option.bind_eq_some_iff.mp replayed
      obtain ⟨first, drained, feeds⟩ := settle_parts replay fuel _ _ settled
      exact ⟨quiet, ⟨started, result, begins, first, fuel, drained, feeds⟩⟩
  · cases replayed

/-- The handler still waits, and for a step that is running. -/
def AwaitsStep (quiet : ReplayWorld H) : Prop := quiet.host.handlerDone = false ∧ quiet.host.inFlightSteps ≠ []

theorem RunningAtCancellation.requested {history : List WorkflowEvent} {stepId : String} (running : RunningAtCancellation history stepId) :
    cancelRequested history = true := by
  obtain ⟨⟨before, after, reason, -, -, whole, -⟩, -⟩ := running
  rw [whole, cancelRequested, List.any_append, List.any_cons]
  simp [WorkflowEvent.isCancelRequested]

theorem compensationsDue_iff (requested : cancelRequested replay.history = true) :
    compensationsDue replay quiet = true ↔ ¬ AwaitsStep quiet := by
  rw [compensationsDue, requested, Bool.true_and, Bool.or_eq_true, List.isEmpty_iff, AwaitsStep, not_and_or, not_not,
    Bool.not_eq_false]

/-- The compensations wait as long as the handler awaits a step that is running. -/
theorem AwaitsStep.wait (awaits : ∀ quiet, Replayed replay handler input quiet → AwaitsStep quiet)
    (requested : cancelRequested replay.history = true) (fuel : Nat) : CompensationsWait fuel replay handler input := by
  intro decision decided
  obtain ⟨final, replayed, outcome, commands⟩ := decision_concluded decided
  obtain ⟨quiet, ⟨stopped⟩⟩ := replayHistory_quiet replayed
  have same := stopped.continues replayed
  rw [if_neg fun due => (compensationsDue_iff requested).mp due (awaits quiet stopped)] at same
  have concluded : conclude replay quiet = (.suspended, quiet.host.newCommands) := by
    rw [conclude, if_pos requested, if_neg (by rw [stopped.stage.compensated]; exact Bool.false_ne_true)]
  rw [outcome, commands, same, concluded]
  exact ⟨(by rintro ⟨⟩), quiet, ⟨stopped⟩, rfl⟩

end Waiting

section Joined

variable {H : Type} {replay : Replay} {input : JsValue} {quiet before after : ReplayWorld H} {stepId : String}

/-- What a call of `step` answers in a cancelled run: a promise, and never an error. -/
def ContextCall.CanAnswer (call : ContextCall H) (answer : Except JsValue JsValue) : Prop :=
  call.isStep = true → ∃ target, answer = .ok (.promise target)

/-- The promise of a step that a call started. -/
def ContextCall.started (call : ContextCall H) (answer : Except JsValue JsValue) : List PromiseId :=
  match call.isStep, answer with
  | true, .ok (.promise target) => [target]
  | _, _ => []

/-- The function awaits each step that it has started, and those of `unjoined`, before it ends. -/
def AsyncFunction.Joins : AsyncFunction H → List PromiseId → Prop
  | .finish _, unjoined => unjoined = []
  | .reads next, unjoined => ∀ heap, (next heap).Joins unjoined
  | .writes _ next, unjoined => next.Joins unjoined
  | .calls call _ next, unjoined => ∀ answer, call.CanAnswer answer → (next answer).Joins (call.started answer ++ unjoined)
  | .awaits target next, unjoined => ∀ outcome, (next outcome).Joins (unjoined.filter fun other => other ≠ target)

/-- The code has issued the step. -/
def Issued (stepId : String) (world : ReplayWorld H) : Prop :=
  ∃ stepType input, .step stepId stepType input ∈ world.host.matcher.issued

/-- The function has not awaited the step that is running, if it has started it. -/
def Holds (stepId : String) (script : AsyncFunction H) (world : ReplayWorld H) : Prop :=
  ∃ unjoined, script.Joins unjoined ∧ (Issued stepId world → world.host.inFlightSteps ≠ [] ∧ ∃ target ∈ unjoined, Never world target)

theorem Never.adds {steps : Bool} {target : PromiseId} (never : Never before target) (adds : Adds steps before after) :
    Never after target := by
  obtain ⟨promise, found, own, unplaced, pending⟩ := never
  obtain ⟨fresh, promises, -⟩ := adds.promises
  refine ⟨promise, ?_, own, unplaced, pending⟩
  rw [promises, List.getElem?_append_left (List.getElem?_eq_some_iff.mp found).1]
  exact found

end Joined

section Examples

end Examples

end DurableExecution.Workflow

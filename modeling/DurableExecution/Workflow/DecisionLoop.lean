import DurableExecution.Workflow.Context

/-
This file models the replay of a workflow over its history and the decision it
makes: the replay context, the parallel helpers, the compensations and `decide`.
-/

namespace DurableExecution.Workflow

open EventLoop

inductive Settled where
  | completed (result : JsValue)
  | failed (error : JsValue)

/-- What `decide` reads of a decision it computes for one history. -/
structure Replay where
  history : List WorkflowEvent
  options : DecisionLoopOptions

def recordedCommands (history : List WorkflowEvent) : List CommandShape :=
  history.filterMap recordedCommandOf

def recordedPatchId : WorkflowEvent → Option String
  | .patchRecorded patchId _ => some patchId
  | _ => none

def recordedPatchIds (history : List WorkflowEvent) : List String :=
  history.filterMap recordedPatchId

def recordedTime : WorkflowEvent → Option Instant
  | .timeRecorded time => some time
  | _ => none

def recordedTimes (history : List WorkflowEvent) : List Instant := history.filterMap recordedTime

def isCountedCommand : WorkflowEvent → Bool
  | .stepScheduled .. | .timerStarted .. | .childStarted .. => true
  | _ => false

/-- The steps, timers and children of a history; patches and times are not counted. -/
def recordedCommandCount (history : List WorkflowEvent) : Nat := history.countP isCountedCommand

def cancelRequested (history : List WorkflowEvent) : Bool :=
  history.any WorkflowEvent.isCancelRequested

def recordedCompensationFailure : WorkflowEvent → Option Nat
  | .compensationFailed index _ => some index
  | _ => none

/-- The locals of a replay context. `deliveries` is the map from a history index to the
waits it releases, flattened. The last three fields are not in the source, so that a
statement can name them: the waits that were rejected because of the cancellation, the
timers whose fire time no date represents, and how often a parallel helper went on with a
wait that the cancellation had ended. -/
structure ReplayState (H : Type) where
  stepSequence : Nat
  timerSequence : Nat
  childSequence : Nat
  signalSequences : String → Nat
  deliveries : List (Nat × PromiseId × Except JsValue JsValue)
  fedUpTo : Int
  matcher : CommandMatcher
  newCommands : List WorkflowCommand
  patchDecisions : List (String × Bool)
  consultedPatches : List String
  timeCalls : Nat
  draws : Nat
  clockReads : Nat
  queryHandlers : List (String × QueryHandler H)
  compensations : List (WorkflowCode H)
  inFlightSteps : List String
  continuation : Option JsValue
  settled : Option Settled
  handlerDone : Bool
  compensated : Bool
  rejectedWaits : List Wait
  unrepresentableTimers : List String
  cancelledChoices : Nat

abbrev ReplayWorld (H : Type) := World H (Operation H) JsValue (Resumption H) WaitTag (ReplayState H)

abbrev ReplayEffect (H : Type) := Effect H (Operation H) JsValue (Resumption H) WaitTag (ReplayState H)

section Calls

variable {H : Type}

def update (change : ReplayState H → ReplayState H) (world : ReplayWorld H) : ReplayWorld H :=
  { world with host := change world.host }

def returned (answer : PromiseId × ReplayWorld H) : ReplayWorld H × Except JsValue JsValue :=
  (answer.2, .ok (.promise answer.1))

/-- A promise that settles when the feed reaches its place in the history.
A place that was already fed settles it at once. -/
def completedAt (historyIndex : Nat) (outcome : Except JsValue JsValue) (world : ReplayWorld H) :
    ReplayWorld H × Except JsValue JsValue :=
  let tag : WaitTag := ⟨some historyIndex, false⟩
  if (historyIndex : Int) ≤ world.host.fedUpTo then
    returned (world.alloc ⟨.host, tag, .settled outcome⟩)
  else
    let waiting := world.alloc ⟨.host, tag, .pending []⟩
    returned (waiting.1, update (fun state => { state with
      deliveries := state.deliveries ++ [(historyIndex, waiting.1, outcome)] }) waiting.2)

def neverSettles (world : ReplayWorld H) : ReplayWorld H × Except JsValue JsValue :=
  returned (world.alloc ⟨.host, default, .pending []⟩)

/-- `Promise.reject(error)`. -/
def rejectedWith (error : JsValue) (world : ReplayWorld H) : ReplayWorld H × Except JsValue JsValue :=
  returned (world.alloc ⟨.host, default, .settled (.error error)⟩)

def noteRejected (wait : Wait) : ReplayWorld H → ReplayWorld H :=
  update fun state => { state with rejectedWaits := state.rejectedWaits ++ [wait] }

def noteUnrepresentable (timerId : String) : ReplayWorld H → ReplayWorld H :=
  update fun state => { state with unrepresentableTimers := state.unrepresentableTimers ++ [timerId] }

/-- A wait that the cancellation ends, and that the parallel helpers can choose. -/
def rejectedByCancellation (world : ReplayWorld H) : ReplayWorld H × Except JsValue JsValue :=
  returned (world.alloc ⟨.host, ⟨none, true⟩, .settled (.error cancelledError)⟩)

/-- The matcher registers the next command. -/
def issue (shape : CommandShape) (whileCancelling : Bool) (world : ReplayWorld H) :
    ReplayWorld H × Except JsValue Bool :=
  let answer := world.host.matcher.issue shape whileCancelling
  (update (fun state => { state with matcher := answer.1 }) world, answer.2)

def pushCommand (command : WorkflowCommand) : ReplayWorld H → ReplayWorld H :=
  update fun state => { state with newCommands := state.newCommands ++ [command] }

def readClock (replay : Replay) (world : ReplayWorld H) : ReplayWorld H × Instant :=
  (update (fun state => { state with clockReads := state.clockReads + 1 }) world,
    replay.options.clock world.host.clockReads)

def step (replay : Replay) (cancelled : Bool) (stepType : String) (input : JsValue)
    (world : ReplayWorld H) : ReplayWorld H × Except JsValue JsValue :=
  let world := update (fun state => { state with stepSequence := state.stepSequence + 1 }) world
  let stepId := "step-" ++ toString world.host.stepSequence
  match issue (.step stepId stepType input) cancelled world with
  | (world, .error mismatch) => (world, .error mismatch)
  | (world, .ok recorded) =>
    match nthOutcome (stepOutcome stepId stepType) 0 0 replay.history with
    | some (historyIndex, outcome) => completedAt historyIndex outcome world
    | none =>
      if !recorded && cancelled then rejectedWith cancelledError (noteRejected (.step stepId) world)
      else
        let world := if recorded then world else pushCommand (.scheduleStep stepId stepType input) world
        let world := if cancelled then
          update (fun state => { state with inFlightSteps := state.inFlightSteps ++ [stepId] }) world
          else world
        neverSettles world

/-- The fire time is computed after the command was counted. A duration whose fire time
no date represents makes `toISOString` throw there. -/
def sleep (replay : Replay) (cancelled : Bool) (durationMs : JsNumber) (world : ReplayWorld H) :
    ReplayWorld H × Except JsValue JsValue :=
  match durationMs.sleepMs with
  | none => rejectedWith (invalidSleepDurationError durationMs) world
  | some duration =>
    let world := update (fun state => { state with timerSequence := state.timerSequence + 1 }) world
    let timerId := "timer-" ++ toString world.host.timerSequence
    match issue (.timer timerId (some durationMs)) cancelled world with
    | (world, .error mismatch) => (world, .error mismatch)
    | (world, .ok recorded) =>
      match nthOutcome (timerOutcome timerId) 0 0 replay.history with
      | some (historyIndex, outcome) => completedAt historyIndex outcome world
      | none =>
        if cancelled then rejectedWith cancelledError (noteRejected (.timer timerId) world)
        else if recorded then neverSettles world
        else
          let reading := readClock replay world
          match reading.2.after duration with
          | none => (noteUnrepresentable timerId reading.1, .error invalidTimeError)
          | some fireAt => neverSettles (pushCommand (.startTimer timerId fireAt durationMs) reading.1)

def waitForSignal (replay : Replay) (cancelled : Bool) (signalName : String) (world : ReplayWorld H) :
    ReplayWorld H × Except JsValue JsValue :=
  let consumed := world.host.signalSequences signalName
  let world := update (fun state => { state with
    signalSequences := Function.update state.signalSequences signalName (consumed + 1) }) world
  match nthOutcome (signalOutcome signalName) consumed 0 replay.history with
  | some (historyIndex, outcome) => completedAt historyIndex outcome world
  | none =>
    if cancelled then
      rejectedWith cancelledError (noteRejected (.signal signalName (consumed + 1)) world)
    else neverSettles world

/-- This operation returns the child's id and the promise of its result. -/
def startChild (replay : Replay) (cancelled : Bool) (workflowType : String) (input : JsValue)
    (options : ChildOptions) (world : ReplayWorld H) :
    ReplayWorld H × Except JsValue (String × JsValue) :=
  let world := update (fun state => { state with childSequence := state.childSequence + 1 }) world
  if replay.options.childLimit < world.host.childSequence then
    (world, .error (childLimitExceededError replay.options.childLimit))
  else
    let childId := "child-" ++ toString world.host.childSequence
    match issue (.child childId workflowType input) cancelled world with
    | (world, .error mismatch) => (world, .error mismatch)
    | (world, .ok recorded) =>
      if !recorded && cancelled then (noteRejected (.child childId) world, .error cancelledError)
      else
        let world := if recorded then world else pushCommand (.startChild childId workflowType input
          (options.parentClosePolicy.getD .cancel) options.runTimeoutMs options.executionTimeoutMs) world
        let answer := match nthOutcome (childOutcome childId) 0 0 replay.history with
          | some (historyIndex, outcome) => completedAt historyIndex outcome world
          | none =>
            if cancelled then rejectedByCancellation (noteRejected (.child childId) world)
            else neverSettles world
        (answer.1, answer.2.map fun result => (childId, result))

def childHandle (child : String × JsValue) : JsValue :=
  .object [("childId", .string child.1), ("result", child.2)]

/-- The promise with the earliest place in the history, with its index and its place. -/
def earliest (world : ReplayWorld H) : List (Nat × PromiseId) → Option ((Nat × PromiseId) × Nat)
  | [] => none
  | branch :: rest =>
    match (world.tagOf branch.2).bind WaitTag.completionPosition, earliest world rest with
    | some position, some (winner, best) =>
      if best < position then some (winner, best) else some (branch, position)
    | some position, none => some (branch, position)
    | none, later => later

/-- The branch that completed first in the history wins; without one the selection
waits forever. -/
def select (branches : List PromiseId) (world : ReplayWorld H) :
    ReplayWorld H × Except JsValue JsValue :=
  let result := world.alloc ⟨.derived, default, .pending []⟩
  match earliest world (branches.zipIdx.map Prod.swap) with
  | some ((winner, chosen), _) =>
    returned (result.1, result.2.react chosen (.host (.selected result.1 winner)))
  | none => returned result

/-- Which running task the parallel loop waits on next. -/
def chooseNext (running : List (Nat × PromiseId)) (world : ReplayWorld H) : Option (Nat × PromiseId) :=
  match earliest world running with
  | some (winner, _) => some winner
  | none => running.find? fun task => ((world.tagOf task.2).map WaitTag.cancelled).getD false

def noteChoice (replay : Replay) (running : List (Nat × PromiseId)) (world : ReplayWorld H) :
    ReplayWorld H :=
  if cancelRequested replay.history && (earliest world running).isNone then
    update (fun state => { state with cancelledChoices := state.cancelledChoices + 1 }) world
  else world

def concurrencyError (concurrency : JsNumber) : JsValue :=
  plainError "RangeError" ("concurrency must be a positive integer, got " ++ concurrency.text)

def validateConcurrency (concurrency : Option JsNumber) (taskCount : Nat) : Except JsValue Nat :=
  match concurrency with
  | none => .ok (max taskCount 1)
  | some (.finite value) =>
    if value.den = 1 ∧ 1 ≤ value then .ok value.num.toNat else .error (concurrencyError (.finite value))
  | some other => .error (concurrencyError other)

def notAPromiseError : JsValue := plainError "TypeError" "the value is not a promise"

/-- This function starts tasks in index order up to the concurrency limit. -/
def startTasks (runTask : Nat → ReplayEffect H) :
    Nat → ParallelState H → ReplayWorld H → ReplayWorld H × Except JsValue (ParallelState H)
  | 0, state, world => (world, .ok state)
  | room + 1, state, world =>
    if state.next < state.taskCount ∧ state.running.length < state.limit then
      match runTask state.next world with
      | (world, .ok (.promise task)) =>
        startTasks runTask room
          { state with running := state.running ++ [(state.next, task)], next := state.next + 1 } world
      | (world, .ok _) => (world, .error notAPromiseError)
      | (world, .error thrown) => (world, .error thrown)
    else (world, .ok state)

def settledValue : Except JsValue JsValue → JsValue
  | .ok value => .object [("status", .string "fulfilled"), ("value", value)]
  | .error reason => .object [("status", .string "rejected"), ("reason", reason)]

/-- The outcomes in task order. -/
def ParallelState.outcomeValues (state : ParallelState H) : JsValue :=
  .array ((List.range state.taskCount).map fun index =>
    ((state.outcomes.find? fun entry => entry.1 == index).map fun entry =>
      settledValue entry.2).getD .undefined)

/-- One round of the shared loop behind `all` and `allSettled`. The source asks `choose`
before the tick it waits; the answer depends only on places that never change, so the
model asks when it resumes. -/
def parallelLoop (runTask : Nat → ReplayEffect H) (state : ParallelState H) (world : ReplayWorld H) :
    ReplayWorld H :=
  if state.settled < state.taskCount then
    match startTasks runTask (state.taskCount - state.next) state world with
    | (world, .error thrown) => world.settle .derived state.result (.error thrown)
    | (world, .ok state) => world.enqueue (.host (.chosen state) (.ok .undefined))
  else world.settle .derived state.result (.ok state.outcomeValues)

def runParallel (runTask : Nat → ReplayEffect H) (tasks : Nat → WorkflowCode H) (taskCount : Nat)
    (concurrency : Option JsNumber) (mode : ParallelMode) (world : ReplayWorld H) :
    PromiseId × ReplayWorld H :=
  let result := world.alloc ⟨.derived, default, .pending []⟩
  match validateConcurrency concurrency taskCount with
  | .error invalid => (result.1, result.2.settle .derived result.1 (.error invalid))
  | .ok limit => (result.1, parallelLoop runTask
      ⟨result.1, mode, taskCount, tasks, limit, 0, 0, [], []⟩ result.2)

def fulfilledValue : JsValue → JsValue
  | .object [("status", .string "fulfilled"), ("value", value)] => value
  | _ => .undefined

def fulfilledValues : JsValue → JsValue
  | .array outcomes => .array (outcomes.map fulfilledValue)
  | other => other

/-- `all` unwraps the outcomes of the shared loop. -/
def all (runTask : Nat → ReplayEffect H) (tasks : Nat → WorkflowCode H) (taskCount : Nat)
    (concurrency : Option JsNumber) (world : ReplayWorld H) : ReplayWorld H × Except JsValue JsValue :=
  let result := world.alloc ⟨.derived, default, .pending []⟩
  let outcomes := runParallel runTask tasks taskCount concurrency .all result.2
  returned (result.1, outcomes.2.react outcomes.1 (.host (.allDone result.1)))

def continueAsNew (replay : Replay) (input : JsValue) (world : ReplayWorld H) :
    ReplayWorld H × Except JsValue JsValue :=
  if cancelRequested replay.history then rejectedWith cancelledError world
  else neverSettles (update (fun state => { state with
    continuation := some (state.continuation.getD input) }) world)

def rememberPatch (patchId : String) (useNewPath : Bool) : ReplayWorld H → ReplayWorld H :=
  update fun state => { state with patchDecisions := state.patchDecisions ++ [(patchId, useNewPath)] }

/-- A patch is taken when the history holds it or when the calls of the code have caught
up with the commands of the history. -/
def decidePatch (replay : Replay) (patchId : String) (world : ReplayWorld H) :
    ReplayWorld H × Except JsValue Bool :=
  let world := update (fun state => { state with
    consultedPatches := state.consultedPatches ++ [patchId] }) world
  match world.host.patchDecisions.lookup patchId with
  | some decided => (world, .ok decided)
  | none =>
    if patchId ∈ recordedPatchIds replay.history then
      match issue (.patch patchId) false world with
      | (world, .error mismatch) => (world, .error mismatch)
      | (world, .ok _) => (rememberPatch patchId true world, .ok true)
    else if world.host.stepSequence + world.host.timerSequence + world.host.childSequence <
        recordedCommandCount replay.history then
      (rememberPatch patchId false world, .ok false)
    else
      match issue (.patch patchId) false world with
      | (world, .error mismatch) => (world, .error mismatch)
      | (world, .ok _) => (rememberPatch patchId true
          (pushCommand (.recordPatch patchId replay.options.buildId) world), .ok true)

/-- The nth call returns the nth recorded time; past them the time of the trigger is
recorded. -/
def now (replay : Replay) (world : ReplayWorld H) : ReplayWorld H × Except JsValue JsValue :=
  let index := world.host.timeCalls
  let world := update (fun state => { state with timeCalls := state.timeCalls + 1 }) world
  match (recordedTimes replay.history)[index]? with
  | some recorded => (world, .ok (.date recorded))
  | none =>
    match replay.options.triggeredAt with
    | some time => (pushCommand (.recordTime time) world, .ok (.date time))
    | none =>
      let reading := readClock replay world
      (pushCommand (.recordTime reading.2) reading.1, .ok (.date reading.2))

def draw (value : Nat → JsValue) (world : ReplayWorld H) : ReplayWorld H × Except JsValue JsValue :=
  (update (fun state => { state with draws := state.draws + 1 }) world, .ok (value world.host.draws))

def registered (answer : ReplayWorld H) : ReplayWorld H × Except JsValue JsValue :=
  (answer, .ok .undefined)

/-- The calls of the context. Only the workflow's own context rejects after a cancellation. -/
def contextCall (replay : Replay) (operation : Operation H) (callbacks : Nat → WorkflowCode H)
    (running : Nat → ReplayEffect H) (world : ReplayWorld H) :
    ReplayWorld H × Except JsValue JsValue :=
  let cancelled := operation.context == .workflow && cancelRequested replay.history
  match operation.call with
  | .step stepType input => step replay cancelled stepType input world
  | .sleep durationMs => sleep replay cancelled durationMs world
  | .waitForSignal signalName => waitForSignal replay cancelled signalName world
  | .select branches => select branches world
  | .setQueryHandler queryName handler => registered (update (fun state => { state with
      queryHandlers := state.queryHandlers ++ [(queryName, handler)] }) world)
  | .onCancel => registered (update (fun state => { state with
      compensations := state.compensations ++ [callbacks 0] }) world)
  | .startChild workflowType input options =>
    let answer := startChild replay cancelled workflowType input options world
    (answer.1, answer.2.map childHandle)
  | .executeChild workflowType input options =>
    let answer := startChild replay cancelled workflowType input options world
    (answer.1, answer.2.map Prod.snd)
  | .all taskCount concurrency => all running callbacks taskCount concurrency world
  | .allSettled taskCount concurrency =>
    returned (runParallel running callbacks taskCount concurrency .allSettled world)
  | .continueAsNew input => continueAsNew replay input world
  | .patched patchId =>
    let answer := decidePatch replay patchId world
    (answer.1, answer.2.map .bool)
  | .deprecatePatch patchId =>
    let answer := decidePatch replay patchId world
    (answer.1, answer.2.map fun _ => .undefined)
  | .now => now replay world
  | .random => draw (fun count => .number (replay.options.random.random count)) world
  | .uuid => draw (fun count => .string (replay.options.random.uuid count)) world

/-- A compensation that threw is recorded once; an integrity error fails the decision. -/
def compensationFailed (replay : Replay) (index : Nat) (reason : JsValue) (world : ReplayWorld H) :
    ReplayWorld H :=
  if isIntegrityError reason then
    update (fun state => { state with settled := some (.failed reason) }) world
  else if index ∈ replay.history.filterMap recordedCompensationFailure then world
  else pushCommand (.recordCompensationFailure index (toRecordedError reason)) world

/-- The compensations run one at a time, the latest registered first. -/
def runCompensations (replay : Replay) (running : WorkflowCode H → ReplayEffect H) :
    Nat → ReplayWorld H → ReplayWorld H
  | 0, world => update (fun state => { state with compensated := true }) world
  | index + 1, world =>
    match world.host.compensations[index]? with
    | none => runCompensations replay running index world
    | some compensation =>
      match running compensation world with
      | (world, .ok (.promise outcome)) => world.react outcome (.host (.compensated index))
      | (world, .ok _) => world.enqueue (.host (.compensated index) (.ok .undefined))
      | (world, .error reason) =>
        runCompensations replay running index (compensationFailed replay index reason world)

/-- How a suspended function of the engine goes on. -/
def resumption (replay : Replay) (resume : Resumption H) (outcome : Except JsValue JsValue)
    (running : WorkflowCode H → ReplayEffect H) (world : ReplayWorld H) : ReplayWorld H :=
  match resume with
  | .handlerSettled =>
    let settled := match outcome with
      | .ok result => Settled.completed result
      | .error reason => Settled.failed (toError reason)
    update (fun state => { state with settled := some settled, handlerDone := true }) world
  | .chosen state =>
    match chooseNext state.running world with
    | none => world
    | some (index, task) =>
      let remaining := { state with running := state.running.filter fun entry => entry.1 != index }
      (noteChoice replay state.running world).react task (.host (.taskSettled remaining index))
  | .taskSettled state index =>
    match state.mode, outcome with
    | .all, .error reason => world.settle .derived state.result (.error reason)
    | _, _ => parallelLoop (fun task => running (state.tasks task))
        { state with outcomes := (index, outcome) :: state.outcomes, settled := state.settled + 1 } world
  | .allDone result => world.settle .derived result (outcome.map fulfilledValues)
  | .selected result winner =>
    world.settle .derived result (outcome.map fun value =>
      .object [("index", .number (.finite winner)), ("value", value)])
  | .compensated remaining =>
    runCompensations replay running remaining (match outcome with
      | .ok _ => world
      | .error reason => compensationFailed replay remaining reason world)

def replayHost (H : Type) (replay : Replay) :
    Host H (Operation H) JsValue (Resumption H) WaitTag (ReplayState H) where
  call := contextCall replay
  resume := resumption replay

end Calls

section Decisions

variable {H : Type}

def initialReplayState (H : Type) (history : List WorkflowEvent) : ReplayState H where
  stepSequence := 0
  timerSequence := 0
  childSequence := 0
  signalSequences := fun _ => 0
  deliveries := []
  fedUpTo := -1
  matcher := createCommandMatcher.record (recordedCommands history)
  newCommands := []
  patchDecisions := []
  consultedPatches := []
  timeCalls := 0
  draws := 0
  clockReads := 0
  queryHandlers := []
  compensations := []
  inFlightSteps := []
  continuation := none
  settled := none
  handlerDone := false
  compensated := false
  rejectedWaits := []
  unrepresentableTimers := []
  cancelledChoices := 0

def initialWorld (handler : WorkflowHandler H) (history : List WorkflowEvent) : ReplayWorld H where
  heap := handler.heap
  promises := []
  jobs := []
  host := initialReplayState H history

/-- The waits of the earliest fed place settle, in the order they were made. -/
def release (next : Nat) (world : ReplayWorld H) : ReplayWorld H :=
  let due := world.host.deliveries.filter fun delivery => delivery.1 == next
  let fed := update (fun state => { state with
    fedUpTo := next
    deliveries := state.deliveries.filter fun delivery => delivery.1 != next }) world
  due.foldl (fun world delivery => world.settle .host delivery.2.1 delivery.2.2) fed

def nextDelivery (world : ReplayWorld H) : Option Nat := (world.host.deliveries.map Prod.fst).min?

/-- The history is fed place by place, and the code runs dry after each. -/
def feedHistory (replay : Replay) (fuel : Nat) : Nat → ReplayWorld H → Option (ReplayWorld H)
  | rounds, world =>
    match nextDelivery world, rounds with
    | none, _ => some world
    | some _, 0 => none
    | some next, rounds + 1 =>
      (drain (replayHost H replay) fuel (release next world)).bind (feedHistory replay fuel rounds)

/-- `await drainToQuiescence(); await feedHistory();` -/
def settle (replay : Replay) (fuel : Nat) (world : ReplayWorld H) : Option (ReplayWorld H) :=
  (drain (replayHost H replay) fuel world).bind (feedHistory replay fuel fuel)

def startHandler (replay : Replay) (handler : WorkflowHandler H) (input : JsValue) :
    ReplayWorld H × Except JsValue JsValue :=
  run (replayHost H replay) (handler.body input) (initialWorld handler replay.history)

/-- Whether the compensations start once the handler has run dry. -/
def compensationsDue (replay : Replay) (world : ReplayWorld H) : Bool :=
  cancelRequested replay.history && (world.host.handlerDone || world.host.inFlightSteps.isEmpty)

def startCompensations (replay : Replay) (world : ReplayWorld H) : ReplayWorld H :=
  runCompensations replay (run (replayHost H replay)) world.host.compensations.length world

/-- This function replays the handler and reports the world it stopped in, or what a
handler that is not asynchronous threw. It returns nothing when the fuel runs out. -/
def replayHistory (fuel : Nat) (replay : Replay) (handler : WorkflowHandler H) (input : JsValue) :
    Option (Except JsValue (ReplayWorld H)) :=
  match startHandler replay handler input with
  | (_, .error thrown) => some (.error thrown)
  | (world, .ok (.promise result)) =>
    (settle replay fuel (world.react result (.host .handlerSettled))).bind fun quiet =>
      if compensationsDue replay quiet then
        (settle replay fuel (startCompensations replay quiet)).map .ok
      else some (.ok quiet)
  | (_, .ok _) => some (.error notAPromiseError)

def unconsultedPatches (replay : Replay) (world : ReplayWorld H) : List String :=
  ((recordedPatchIds replay.history).filter fun id => id ∉ world.host.consultedPatches).eraseDups

def patchBuild (unconsulted : List String) : WorkflowEvent → Option String
  | .patchRecorded patchId buildId => if patchId ∈ unconsulted then buildId else none
  | _ => none

/-- The error that refuses a decision whose history holds patches the code never asked about. -/
def throwOnVersionMismatch (replay : Replay) (unconsulted : List String) : Option JsValue :=
  if unconsulted.isEmpty then none
  else some (versionMismatchError unconsulted
    (replay.history.filterMap (patchBuild unconsulted)).eraseDups replay.options.buildId)

inductive DecisionOutcome where
  | completed (result : JsValue)
  | failed (error : JsValue)
  | suspended
  | cancelled
  | continuedAsNew (input : JsValue)

structure HistoryWarning where
  eventCount : Nat
  threshold : Nat

structure Decision where
  outcome : DecisionOutcome
  commands : List WorkflowCommand
  historyWarning : Option HistoryWarning

def cancelReason : List WorkflowEvent → Option String
  | [] => none
  | .cancelRequested reason :: _ => reason
  | _ :: rest => cancelReason rest

def integrityFailure : Option Settled → Option JsValue
  | some (.failed error) => if isIntegrityError error then some error else none
  | _ => none

/-- The outcome and commands of a replay that is trusted. -/
def conclude (replay : Replay) (world : ReplayWorld H) : DecisionOutcome × List WorkflowCommand :=
  let commands := world.host.newCommands
  if cancelRequested replay.history then
    if world.host.compensated then
      (.cancelled, commands ++ [.cancelRun (cancelReason replay.history)])
    else (.suspended, commands)
  else
    match world.host.continuation, world.host.settled with
    | some input, _ => (.continuedAsNew input, [.continueAsNew input])
    | none, none => (.suspended, commands)
    | none, some (.completed result) => (.completed result, commands ++ [.completeRun result])
    | none, some (.failed error) => (.failed error, commands ++ [.failRun (toRecordedError error)])

def historyWarning (replay : Replay) : Option HistoryWarning :=
  match replay.options.historyWarningThreshold with
  | some threshold =>
    if threshold ≤ replay.history.length then some ⟨replay.history.length, threshold⟩ else none
  | none => none

/-- This function turns the world a replay stopped in into a decision, or refuses it. -/
def decideFrom (replay : Replay) (world : ReplayWorld H) : Except JsValue Decision :=
  match throwOnVersionMismatch replay (unconsultedPatches replay world) with
  | some mismatch => .error mismatch
  | none =>
    match integrityFailure world.host.settled with
    | some error => .error error
    | none =>
      match world.host.matcher.assertAllIssued with
      | some unissued => .error unissued
      | none =>
        let concluded := conclude replay world
        .ok ⟨concluded.1, concluded.2, historyWarning replay⟩

/-- This function rebuilds a workflow's decision from its recorded history. -/
def runDecisionLoop (fuel : Nat) (replay : Replay) (handler : WorkflowHandler H) (input : JsValue) :
    Option (Except JsValue Decision) :=
  (replayHistory fuel replay handler input).map fun outcome => outcome.bind (decideFrom replay)

end Decisions

end DurableExecution.Workflow

import DurableExecution.Engine.RunService
import DurableExecution.Workflow.RunLog

/-
This file models a live session: an execution of a workflow that is kept between its
decisions and is fed only the events that are new.
-/

namespace DurableExecution.Workflow.Live

open EventLoop

/-- What a suspended call of a session waits for. -/
inductive Waiter where
  | step (stepId stepType : String)
  | timer (timerId : String)
  | signal (signalName : String) (index : Nat)

def Waiter.key : Waiter → String
  | .step stepId _ => "step:" ++ stepId
  | .timer timerId => "timer:" ++ timerId
  | .signal signalName _ => "signal:" ++ signalName

def isSupportedEvent : WorkflowEvent → Bool
  | .runStarted .. | .stepScheduled .. | .stepCompleted .. | .stepFailed .. | .stepAttemptFailed ..
  | .timerStarted .. | .timerFired _ | .signalReceived .. | .timeRecorded _ => true
  | _ => false

/-- The locals of a session. `waiters` is the map from a key to the calls that wait for it,
flattened; `clockReads` counts the readings of the session's clock, and the last field is
not in the source, so that a statement can name the timers whose fire time no date represents. -/
structure LiveState (H : Type) where
  history : List WorkflowEvent
  matcher : CommandMatcher
  finishedSteps : String → Option WorkflowEvent
  firedTimers : List String
  signals : String → List JsValue
  signalConsumption : String → Nat
  waiters : List (Waiter × PromiseId)
  queryHandlers : List (String × QueryHandler H)
  recordedTimes : List Instant
  triggeredAt : Option Instant
  commands : List WorkflowCommand
  emitted : List WorkflowCommand
  stepSequence : Nat
  timerSequence : Nat
  timeCalls : Nat
  draws : Nat
  clockReads : Nat
  unsupported : Bool
  started : Bool
  finished : Bool
  settled : Option Settled
  unrepresentableTimers : List String

abbrev LiveWorld (H : Type) := World H (Operation H) JsValue (Resumption H) WaitTag (LiveState H)

section Calls

variable {H : Type}

def alter (change : LiveState H → LiveState H) (world : LiveWorld H) : LiveWorld H :=
  { world with host := change world.host }

def returned (answer : PromiseId × LiveWorld H) : LiveWorld H × Except JsValue JsValue :=
  (answer.2, .ok (.promise answer.1))

/-- What `tryResolve` of a waiter settles its promise with. -/
def LiveState.tryResolve (state : LiveState H) : Waiter → Option (Except JsValue JsValue)
  | .step stepId stepType => (state.finishedSteps stepId).bind (stepOutcome stepId stepType)
  | .timer timerId => if timerId ∈ state.firedTimers then some (.ok .undefined) else none
  | .signal signalName index => (state.signals signalName)[index]?.map .ok

/-- A promise that settles at once or registers a waiter. -/
def pendingPromise (waiter : Waiter) (world : LiveWorld H) : LiveWorld H × Except JsValue JsValue :=
  match world.host.tryResolve waiter with
  | some outcome => returned (world.alloc ⟨.host, default, .settled outcome⟩)
  | none =>
    let waiting := world.alloc ⟨.host, default, .pending []⟩
    returned (waiting.1, alter (fun state => { state with
      waiters := state.waiters ++ [(waiter, waiting.1)] }) waiting.2)

def neverSettles (world : LiveWorld H) : LiveWorld H × Except JsValue JsValue :=
  returned (world.alloc ⟨.host, default, .pending []⟩)

def rejectedWith (error : JsValue) (world : LiveWorld H) : LiveWorld H × Except JsValue JsValue :=
  returned (world.alloc ⟨.host, default, .settled (.error error)⟩)

def flag : LiveWorld H → LiveWorld H := alter fun state => { state with unsupported := true }

def flagUnsupported (world : LiveWorld H) : LiveWorld H × Except JsValue JsValue := neverSettles (flag world)

def issue (shape : CommandShape) (world : LiveWorld H) : LiveWorld H × Except JsValue Bool :=
  let answer := world.host.matcher.issue shape false
  (alter (fun state => { state with matcher := answer.1 }) world, answer.2)

def pushCommand (command : WorkflowCommand) : LiveWorld H → LiveWorld H :=
  alter fun state => { state with commands := state.commands ++ [command] }

def readClock (options : DecisionLoopOptions) (world : LiveWorld H) : LiveWorld H × Instant :=
  (alter (fun state => { state with clockReads := state.clockReads + 1 }) world,
    options.clock world.host.clockReads)

def step (stepType : String) (input : JsValue) (world : LiveWorld H) : LiveWorld H × Except JsValue JsValue :=
  let world := alter (fun state => { state with stepSequence := state.stepSequence + 1 }) world
  let stepId := "step-" ++ toString world.host.stepSequence
  match issue (.step stepId stepType input) world with
  | (world, .error mismatch) => (world, .error mismatch)
  | (world, .ok recorded) =>
    pendingPromise (.step stepId stepType)
      (if recorded then world else pushCommand (.scheduleStep stepId stepType input) world)

/-- A duration whose fire time no date represents makes `toISOString` throw. -/
def sleep (options : DecisionLoopOptions) (durationMs : JsNumber) (world : LiveWorld H) :
    LiveWorld H × Except JsValue JsValue :=
  match durationMs.sleepMs with
  | none => rejectedWith (invalidSleepDurationError durationMs) world
  | some duration =>
    let world := alter (fun state => { state with timerSequence := state.timerSequence + 1 }) world
    let timerId := "timer-" ++ toString world.host.timerSequence
    match issue (.timer timerId (some durationMs)) world with
    | (world, .error mismatch) => (world, .error mismatch)
    | (world, .ok true) => pendingPromise (.timer timerId) world
    | (world, .ok false) =>
      let reading := readClock options world
      match reading.2.after duration with
      | none => (alter (fun state => { state with
          unrepresentableTimers := state.unrepresentableTimers ++ [timerId] }) reading.1, .error invalidTimeError)
      | some fireAt =>
        pendingPromise (.timer timerId) (pushCommand (.startTimer timerId fireAt durationMs) reading.1)

def waitForSignal (signalName : String) (world : LiveWorld H) : LiveWorld H × Except JsValue JsValue :=
  let index := world.host.signalConsumption signalName
  pendingPromise (.signal signalName index) (alter (fun state => { state with
    signalConsumption := Function.update state.signalConsumption signalName (index + 1) }) world)

/-- The nth call returns the nth recorded time; past them the time of the trigger is
recorded. -/
def now (options : DecisionLoopOptions) (world : LiveWorld H) : LiveWorld H × Except JsValue JsValue :=
  let index := world.host.timeCalls
  let world := alter (fun state => { state with timeCalls := state.timeCalls + 1 }) world
  match world.host.recordedTimes[index]? with
  | some recorded => (world, .ok (.date recorded))
  | none =>
    match world.host.triggeredAt with
    | some time => (pushCommand (.recordTime time) world, .ok (.date time))
    | none =>
      let reading := readClock options world
      (pushCommand (.recordTime reading.2) reading.1, .ok (.date reading.2))

def draw (value : Nat → JsValue) (world : LiveWorld H) : LiveWorld H × Except JsValue JsValue :=
  (alter (fun state => { state with draws := state.draws + 1 }) world, .ok (value world.host.draws))

/-- The calls of the context of a session. -/
def contextCall (options : DecisionLoopOptions) (operation : Operation H) (world : LiveWorld H) :
    LiveWorld H × Except JsValue JsValue :=
  match operation.call with
  | .step stepType input => step stepType input world
  | .sleep durationMs => sleep options durationMs world
  | .waitForSignal signalName => waitForSignal signalName world
  | .setQueryHandler queryName handler => (alter (fun state => { state with
      queryHandlers := state.queryHandlers ++ [(queryName, handler)] }) world, .ok .undefined)
  | .now => now options world
  | .random => draw (fun count => .number (options.random.random count)) world
  | .uuid => draw (fun count => .string (options.random.uuid count)) world
  | .startChild .. =>
    let result := neverSettles (flag world)
    (result.1, result.2.map fun promise => childHandle ("", promise))
  | .executeChild .. | .all .. | .allSettled .. | .select _ | .continueAsNew _ => flagUnsupported world
  | .onCancel | .deprecatePatch _ => (flag world, .ok .undefined)
  | .patched _ => (flag world, .ok (.bool false))

/-- The handler is the only function that a session waits for: it makes no promise of a
parallel helper, so that nothing else is resumed. -/
def resumption (resume : Resumption H) (outcome : Except JsValue JsValue) (world : LiveWorld H) : LiveWorld H :=
  match resume with
  | .handlerSettled =>
    let settled := match outcome with
      | .ok result => Settled.completed result
      | .error reason => Settled.failed (toError reason)
    alter (fun state => { state with settled := some settled }) world
  | _ => flag world

def liveHost (H : Type) (options : DecisionLoopOptions) :
    Host H (Operation H) JsValue (Resumption H) WaitTag (LiveState H) where
  call operation _ _ := contextCall options operation
  resume resume outcome _ := resumption resume outcome

end Calls

section Sessions

variable {H : Type}

/-- A new event of the history becomes known to the matcher and to `now`. -/
def index (state : LiveState H) (event : WorkflowEvent) : LiveState H :=
  { state with
    history := state.history ++ [event]
    matcher := state.matcher.record (recordedCommandOf event).toList
    recordedTimes := state.recordedTimes ++ (recordedTime event).toList }

/-- The waiters of a key that can be resolved are, in the order they were registered. -/
def notify (key : String) (world : LiveWorld H) : Bool × LiveWorld H :=
  let resolved := world.host.waiters.filterMap fun entry =>
    if entry.1.key = key then (world.host.tryResolve entry.1).map fun outcome => (entry.2, outcome) else none
  let remaining := world.host.waiters.filter fun entry =>
    decide (entry.1.key ≠ key) || (world.host.tryResolve entry.1).isNone
  (!resolved.isEmpty, resolved.foldl (fun world entry => world.settle .host entry.1 entry.2)
    (alter (fun state => { state with waiters := remaining }) world))

/-- An outcome or a signal reaches the calls that wait for it. -/
def deliver (event : WorkflowEvent) (world : LiveWorld H) : Bool × LiveWorld H :=
  match event with
  | .stepCompleted stepId _ | .stepFailed stepId _ _ =>
    notify ("step:" ++ stepId) (alter (fun state => { state with
      finishedSteps := Function.update state.finishedSteps stepId (some event) }) world)
  | .timerFired timerId =>
    notify ("timer:" ++ timerId) (alter (fun state => { state with
      firedTimers := state.firedTimers ++ [timerId] }) world)
  | .signalReceived signalName payload =>
    notify ("signal:" ++ signalName) (alter (fun state => { state with
      signals := Function.update state.signals signalName (state.signals signalName ++ [payload]) }) world)
  | _ => (false, world)

/-- The code runs dry after each event that a call was waiting for. -/
def deliverAll (options : DecisionLoopOptions) (fuel : Nat) : List WorkflowEvent → LiveWorld H → Option (LiveWorld H)
  | [], world => some world
  | event :: rest, world =>
    match deliver event world with
    | (true, reached) => (drain (liveHost H options) fuel reached).bind (deliverAll options fuel rest)
    | (false, reached) => deliverAll options fuel rest reached

def isRecordTime : WorkflowCommand → Bool
  | .recordTime _ => true
  | _ => false

/-- Whether an event of the slice records a command. -/
def recordedIn (slice : List WorkflowEvent) : WorkflowCommand → Bool
  | .scheduleStep stepId .. => slice.any fun event => match event with
    | .stepScheduled id .. => id == stepId
    | _ => false
  | .startTimer timerId .. => slice.any fun event => match event with
    | .timerStarted id .. => id == timerId
    | _ => false
  | _ => true

/-- The check that a session makes before it goes on: it looks for the ids of the commands
it emitted, and counts the times. -/
def emittedAreRecorded (emitted : List WorkflowCommand) (slice : List WorkflowEvent) : Bool :=
  decide (emitted.countP isRecordTime ≤ (recordedTimes slice).length) && emitted.all (recordedIn slice)

def sameRecordedError : RecordedError → RecordedError → Bool
  | .mk name message details cause, .mk name' message' details' cause' =>
    name == name' && message == message' &&
      (match details, details' with
        | none, none => true
        | some one, some two => Engine.isDeepStrictEqual one two
        | _, _ => false) &&
      (match cause, cause' with
        | none, none => true
        | some one, some two => sameRecordedError one two
        | _, _ => false)

/-- `isDeepStrictEqual` of an event and another one that a session supports. -/
def sameEvent : WorkflowEvent → WorkflowEvent → Bool
  | .runStarted workflowType input, .runStarted workflowType' input' =>
    workflowType == workflowType' && Engine.isDeepStrictEqual input input'
  | .stepScheduled stepId stepType input, .stepScheduled stepId' stepType' input' =>
    stepId == stepId' && stepType == stepType' && Engine.isDeepStrictEqual input input'
  | .stepCompleted stepId result, .stepCompleted stepId' result' =>
    stepId == stepId' && Engine.isDeepStrictEqual result result'
  | .stepFailed stepId error exhausted, .stepFailed stepId' error' exhausted' =>
    stepId == stepId' && sameRecordedError error error' && exhausted == exhausted'
  | .stepAttemptFailed stepId attempt error retryAt, .stepAttemptFailed stepId' attempt' error' retryAt' =>
    stepId == stepId' && attempt == attempt' && sameRecordedError error error' && decide (retryAt = retryAt')
  | .timerStarted timerId fireAt durationMs, .timerStarted timerId' fireAt' durationMs' =>
    timerId == timerId' && decide (fireAt = fireAt') && durationMs == durationMs'
  | .timerFired timerId, .timerFired timerId' => timerId == timerId'
  | .signalReceived signalName payload, .signalReceived signalName' payload' =>
    signalName == signalName' && Engine.isDeepStrictEqual payload payload'
  | .timeRecorded time, .timeRecorded time' => decide (time = time')
  | _, _ => false

/-- Whether the history holds the last event that the session has seen at its place. -/
def sameLast (seen full : List WorkflowEvent) : Bool :=
  match seen.getLast? with
  | none => true
  | some last => (full[seen.length - 1]?).elim false fun event => sameEvent event last

inductive LiveAdvance where
  | decided (decision : Decision)
  | unsupported
  | diverged

/-- A session that has seen nothing. -/
def freshState (H : Type) : LiveState H where
  history := []
  matcher := createCommandMatcher
  finishedSteps := fun _ => none
  firedTimers := []
  signals := fun _ => []
  signalConsumption := fun _ => 0
  waiters := []
  queryHandlers := []
  recordedTimes := []
  triggeredAt := none
  commands := []
  emitted := []
  stepSequence := 0
  timerSequence := 0
  timeCalls := 0
  draws := 0
  clockReads := 0
  unsupported := false
  started := false
  finished := false
  settled := none
  unrepresentableTimers := []

def createLiveSession (handler : WorkflowHandler H) : LiveWorld H where
  heap := handler.heap
  promises := []
  jobs := []
  host := freshState H

/-- The first advance calls the handler. -/
def startHandler (options : DecisionLoopOptions) (handler : WorkflowHandler H) (input : JsValue)
    (world : LiveWorld H) : LiveWorld H × Except JsValue Unit :=
  if world.host.started then (world, .ok ())
  else
    match run (liveHost H options) (handler.body input) (alter (fun state => { state with started := true }) world) with
    | (world, .error thrown) => (world, .error thrown)
    | (world, .ok (.promise result)) => (world.react result (.host .handlerSettled), .ok ())
    | (world, .ok _) => (world, .error notAPromiseError)

/-- The decision of a session that is trusted. -/
def buildDecision (options : DecisionLoopOptions) (state : LiveState H) : Decision × LiveState H :=
  let warning := historyWarning ⟨state.history, options⟩
  match state.settled with
  | none => (⟨.suspended, state.commands, warning⟩, state)
  | some (.completed result) =>
    let commands := state.commands ++ [.completeRun result]
    (⟨.completed result, commands, warning⟩, { state with finished := true, commands := commands })
  | some (.failed error) =>
    let commands := state.commands ++ [.failRun (toRecordedError error)]
    (⟨.failed error, commands, warning⟩, { state with finished := true, commands := commands })

/-- What an advance reports once the session has run dry. -/
def conclude (options : DecisionLoopOptions) (world : LiveWorld H) : LiveWorld H × Except JsValue LiveAdvance :=
  let closed := alter (fun state => { state with finished := true }) world
  if world.host.unsupported then (world, .ok .unsupported)
  else
    match integrityFailure world.host.settled with
    | some error => (closed, .error error)
    | none =>
      match world.host.matcher.assertAllIssued with
      | some unissued => (closed, .error unissued)
      | none =>
        let built := buildDecision options world.host
        (alter (fun _ => { built.2 with emitted := built.2.commands }) world, .ok (.decided built.1))

/-- The part of `advance` behind its checks: the new events are indexed, the handler is called
when it was not yet, and the new events are delivered. -/
def goOn (fuel : Nat) (options : DecisionLoopOptions) (handler : WorkflowHandler H) (input : JsValue)
    (slice : List WorkflowEvent) (world : LiveWorld H) : Option (LiveWorld H × Except JsValue LiveAdvance) :=
  let indexed := alter (fun state => slice.foldl index { state with commands := [] }) world
  match startHandler options handler input indexed with
  | (world, .error thrown) => some (world, .error thrown)
  | (world, .ok ()) =>
    ((drain (liveHost H options) fuel world).bind (deliverAll options fuel slice)).map (conclude options)

/-- This operation feeds the whole history and decides. It returns nothing when the fuel runs out. -/
def advance (fuel : Nat) (options : DecisionLoopOptions) (handler : WorkflowHandler H) (input : JsValue)
    (full : List WorkflowEvent) (trigger : Option Instant) (session : LiveWorld H) :
    Option (LiveWorld H × Except JsValue LiveAdvance) :=
  let world := alter (fun state => { state with triggeredAt := trigger }) session
  let seen := world.host.history
  let slice := full.drop seen.length
  if world.host.finished || world.host.unsupported || decide (full.length < seen.length) then
    some (world, .ok .diverged)
  else if !sameLast seen full then some (world, .ok .diverged)
  else if !slice.all isSupportedEvent then some (flag world, .ok .unsupported)
  else if !emittedAreRecorded world.host.emitted slice then some (world, .ok .diverged)
  else goOn fuel options handler input slice world

end Sessions

end DurableExecution.Workflow.Live

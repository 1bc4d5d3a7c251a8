import DurableExecution.Workflow.Growth
import DurableExecution.Workflow.InMemory

/-
This file follows a replay of a handler that awaits each call: from one call to the next,
through the microtasks and the feed in between.
-/

namespace DurableExecution.Workflow

open EventLoop

section Loop

variable {replay : Replay} {world final : ReplayWorld Unit} {started : Bool}

/-- A world runs dry and is fed to its end. -/
def RunsDry (replay : Replay) (world final : ReplayWorld Unit) : Prop :=
  ∃ fuel quiet, drain (replayHost Unit replay) fuel world = some quiet ∧ Feeds replay quiet final

/-- Once the handler has returned, the engine awaits its promise. -/
def awaited (started : Bool) (world : ReplayWorld Unit) : ReplayWorld Unit :=
  if started then world else world.react 0 (.host .handlerSettled)

/-- The promise of the handler's result, which nobody has settled. -/
def resultPromise (started : Bool) : ReplayPromise Unit :=
  ⟨.code, default, .pending (if started then [.host .handlerSettled] else [])⟩

/-- Nothing is queued, nothing is due, and the handler has not ended. -/
structure Idle (started : Bool) (world : ReplayWorld Unit) : Prop where
  jobs : world.jobs = []
  deliveries : world.host.deliveries = []
  result : world.promises[0]? = some (resultPromise started)

theorem Idle.update {change : ReplayState Unit → ReplayState Unit} (idle : Idle started world)
    (kept : (change world.host).deliveries = []) : Idle started (update change world) := ⟨idle.jobs, kept, idle.result⟩

/-- The parts of an idle world. -/
theorem Idle.parts (idle : Idle started world) :
    ∃ heap others host, host.deliveries = [] ∧ world = ⟨heap, resultPromise started :: others, [], host⟩ := by
  obtain ⟨heap, promises, jobs, host⟩ := world
  obtain ⟨rfl, deliveries, result⟩ := idle
  cases promises with
  | nil => cases result
  | cons first others =>
    cases result
    exact ⟨heap, others, host, deliveries, rfl⟩

theorem awaited_parts (started : Bool) (heap : Unit) (others : List (ReplayPromise Unit)) (jobs : List (ReplayJob Unit))
    (host : ReplayState Unit) :
    awaited started ⟨heap, resultPromise started :: others, jobs, host⟩ = ⟨heap, resultPromise true :: others, jobs, host⟩ := by
  cases started <;> rfl

theorem RunsDry.step {job : ReplayJob Unit} {rest : List (ReplayJob Unit)}
    (queued : world.jobs = job :: rest)
    (settles : RunsDry replay (perform (replayHost Unit replay) job { world with jobs := rest }) final) : RunsDry replay world final := by
  obtain ⟨fuel, quiet, drained, feeds⟩ := settles
  refine ⟨fuel + 1, quiet, ?_, feeds⟩
  rw [drain_step _ fuel world job rest queued]
  exact drained

theorem RunsDry.feed {place : Nat} (quiet : world.jobs = []) (due : nextDelivery world = some place)
    (settles : RunsDry replay (release place world) final) : RunsDry replay world final := by
  obtain ⟨fuel, dry, drained, feeds⟩ := settles
  exact ⟨0, world, drain_quiet _ 0 world quiet, .next world dry final place fuel due drained feeds⟩

theorem RunsDry.rest (quiet : world.jobs = []) (fed : nextDelivery world = none) : RunsDry replay world world :=
  ⟨0, world, drain_quiet _ 0 world quiet, .done world fed⟩

section Waits

variable (idle : Idle started world) (body : Except JsValue JsValue → WorkflowCode Unit)

include idle

/-- A wait that the history ends is fed, and the code goes on. -/
theorem settles_delivered (place : Nat) (outcome : Except JsValue JsValue) (later : world.host.fedUpTo < (place : Int)) :
    ∃ next : ReplayWorld Unit, Idle true next ∧ next.host = { world.host with fedUpTo := place } ∧
      (completedAt place outcome world).2 = .ok (.promise world.promises.length) ∧ ∀ final,
        RunsDry replay (run (replayHost Unit replay) (body outcome) next).1 final →
          RunsDry replay (awaited started ((completedAt place outcome world).1.react world.promises.length (.code body))) final := by
  obtain ⟨heap, others, host, deliveries, rfl⟩ := idle.parts
  let settled : ReplayPromise Unit := ⟨.host, ⟨some place, false⟩, .settled outcome⟩
  let next : ReplayWorld Unit := ⟨heap, resultPromise true :: (others ++ [settled]), [], { host with fedUpTo := place }⟩
  have waiting : (completedAt place outcome ⟨heap, resultPromise started :: others, [], host⟩).1.react
      (resultPromise started :: others).length (.code body) =
      ⟨heap, resultPromise started :: (others ++ [⟨.host, ⟨some place, false⟩, .pending [.code body]⟩]), [],
        { host with deliveries := [(place, others.length + 1, outcome)] }⟩ := by
    simp only [completedAt, if_neg (not_le.mpr later), returned, World.alloc, update, World.react]
    simp [deliveries, Promise.withStatus]
  refine ⟨next, ⟨rfl, deliveries, rfl⟩, rfl, ?_, fun final goes => ?_⟩
  · simp only [completedAt, if_neg (not_le.mpr later), returned, World.alloc]
  · rw [waiting, awaited_parts]
    refine RunsDry.feed rfl (show nextDelivery _ = some place from rfl) ?_
    have released : release place ⟨heap, resultPromise true ::
        (others ++ [⟨.host, ⟨some place, false⟩, .pending [.code body]⟩]), [],
        { host with deliveries := [(place, others.length + 1, outcome)] }⟩ = { next with jobs := [.code (body outcome)] } := by
      simp [release, update, World.settle, Promise.withStatus, Reaction.job, next, settled, deliveries]
    rw [released]
    exact RunsDry.step rfl goes

/-- A promise that is rejected at once resumes the code with the next microtask. -/
theorem settles_rejected (error : JsValue) : ∃ next : ReplayWorld Unit, Idle true next ∧ next.host = world.host ∧
      (rejectedWith error world).2 = .ok (.promise world.promises.length) ∧ ∀ final,
        RunsDry replay (run (replayHost Unit replay) (body (.error error)) next).1 final →
          RunsDry replay (awaited started ((rejectedWith error world).1.react world.promises.length (.code body))) final := by
  obtain ⟨heap, others, host, deliveries, rfl⟩ := idle.parts
  let settled : ReplayPromise Unit := ⟨.host, default, .settled (.error error)⟩
  let next : ReplayWorld Unit := ⟨heap, resultPromise true :: (others ++ [settled]), [], host⟩
  refine ⟨next, ⟨rfl, deliveries, rfl⟩, rfl, rfl, fun final goes => ?_⟩
  have waiting : (rejectedWith error ⟨heap, resultPromise started :: others, [], host⟩).1.react
      (resultPromise started :: others).length (.code body) =
      ⟨heap, resultPromise started :: (others ++ [settled]), [.code (body (.error error))], host⟩ := by
    simp [rejectedWith, returned, World.alloc, World.react, Reaction.job, settled]
  rw [waiting, awaited_parts]
  exact RunsDry.step rfl goes

/-- A wait that the history does not end is where the replay stops. -/
theorem settles_never : (neverSettles world).2 = .ok (.promise world.promises.length) ∧ ∃ final, final.host = world.host ∧
      RunsDry replay (awaited started ((neverSettles world).1.react world.promises.length (.code body))) final := by
  obtain ⟨heap, others, host, deliveries, rfl⟩ := idle.parts
  refine ⟨rfl, ?_⟩
  have waiting : (neverSettles ⟨heap, resultPromise started :: others, [], host⟩).1.react
      (resultPromise started :: others).length (.code body) =
      ⟨heap, resultPromise started :: (others ++ [⟨.host, default, .pending [.code body]⟩]), [], host⟩ := by
    simp [neverSettles, returned, World.alloc, World.react, Promise.withStatus]
  rw [waiting, awaited_parts]
  refine ⟨⟨heap, resultPromise true :: (others ++ [⟨.host, default, .pending [.code body]⟩]), [], host⟩, rfl, RunsDry.rest rfl ?_⟩
  rw [nextDelivery, deliveries]
  rfl

omit body in
/-- The handler ends. -/
theorem settles_finish (completion : Except JsValue JsValue) :
    ∃ final : ReplayWorld Unit, final.host = { world.host with settled := some (Settled.of completion), handlerDone := true } ∧
      RunsDry replay (awaited started (world.settle .code 0 completion)) final := by
  obtain ⟨heap, others, host, deliveries, rfl⟩ := idle.parts
  let settled : ReplayPromise Unit := ⟨.code, default, .settled completion⟩
  have queued : awaited started (World.settle .code 0 completion ⟨heap, resultPromise started :: others, [], host⟩) =
      ⟨heap, settled :: others, [.host .handlerSettled completion], host⟩ := by
    cases started <;> rfl
  rw [queued]
  refine ⟨_, rfl, RunsDry.step rfl (RunsDry.rest rfl ?_)⟩
  change nextDelivery (update _ _) = none
  rw [nextDelivery, update]
  simp [deliveries]

end Waits

end Loop

section Code

variable {replay : Replay} {world : ReplayWorld Unit}

theorem awaitCall_returns {operation : Operation Unit} {completion : Except JsValue JsValue}
    {next : Except JsValue JsValue → WorkflowCode Unit}
    (returns : ∀ outcome world, (run (replayHost Unit replay) (next outcome) world).2 = completion) (world : ReplayWorld Unit) :
    (run (replayHost Unit replay) (awaitCall operation (.finish completion) next) world).2 = completion := by
  rw [awaitCall, run]
  generalize (replayHost Unit replay).call operation _ _ world = answer
  obtain ⟨after, answer⟩ := answer
  cases answer with
  | error thrown => exact returns _ _
  | ok value =>
    cases value with
    | promise target => rfl
    | _ => exact returns _ _

/-- The code of a handler returns the promise of its result. -/
theorem code_returns (result : PromiseId) (script : SequentialHandler) (world : ReplayWorld Unit) :
    (run (replayHost Unit replay) (script.code result) world).2 = .ok (.promise result) := by
  induction script generalizing world with
  | finish completion => rfl
  | step stepType input next ih => exact awaitCall_returns (fun outcome world => ih outcome world) world
  | sleep durationMs next ih => exact awaitCall_returns (fun outcome world => ih outcome world) world
  | executeChild workflowType input options next ih => exact awaitCall_returns (fun outcome world => ih outcome world) world
  | continueAsNew input next ih => exact awaitCall_returns (fun outcome world => ih outcome world) world
  | patched patchId next ih => exact ih _ _
  | startChild workflowType input options refused next refusedReturns ih =>
    rw [SequentialHandler.code, run]
    generalize (replayHost Unit replay).call _ _ _ world = answer
    obtain ⟨after, answer⟩ := answer
    dsimp only
    split
    · rfl
    · exact refusedReturns _ _
    · exact refusedReturns _ _

theorem run_awaitCall {operation : Operation Unit} {completion : Except JsValue JsValue}
    {next : Except JsValue JsValue → WorkflowCode Unit} {after : ReplayWorld Unit} {target : PromiseId}
    (called : ∀ callbacks running, contextCall replay operation callbacks running world = (after, .ok (.promise target))) :
    run (replayHost Unit replay) (awaitCall operation (.finish completion) next) world = (after.react target (.code next), completion) := by
  rw [awaitCall, run, show (replayHost Unit replay).call = contextCall replay from rfl, called]
  rfl

theorem run_awaitCall_thrown {operation : Operation Unit} {completion : Except JsValue JsValue}
    {next : Except JsValue JsValue → WorkflowCode Unit} {after : ReplayWorld Unit} {thrown : JsValue}
    (called : ∀ callbacks running, contextCall replay operation callbacks running world = (after, .error thrown)) :
    run (replayHost Unit replay) (awaitCall operation (.finish completion) next) world =
      run (replayHost Unit replay) (next (.error thrown)) after := by
  rw [awaitCall, run]
  rw [show (replayHost Unit replay).call = contextCall replay from rfl, called]

end Code

section Places

/-- Where a replay stands: it has issued the commands of `base`, and discovered `fresh` since. -/
structure Stands (replay : Replay) (base : List WorkflowEvent) (fresh : List WorkflowCommand) (memory : InMemoryState)
    (host : ReplayState Unit) : Prop where
  steps : host.stepSequence = memory.stepSequence
  timers : host.timerSequence = memory.timerSequence
  children : host.childSequence = memory.childSequence
  recorded : host.matcher.recorded = recordedCommands replay.history
  issued : host.matcher.issued.length = (recordedCommands (base ++ fresh.map commandToEvent)).length
  commands : host.newCommands = fresh
  patches : ∀ patchId, host.patchDecisions.lookup patchId = if patchId ∈ memory.recordedPatches then some true else none
  consulted : ∀ patchId ∈ memory.recordedPatches, patchId ∈ host.consultedPatches
  fed : host.fedUpTo < base.length
  going : host.continuation = none
  settled : host.settled = none

/-- What a log holds when the runner has come to a state. -/
structure Records (log : List WorkflowEvent) (memory : InMemoryState) : Prop where
  patches : ∀ patchId, patchId ∈ recordedPatchIds log ↔ patchId ∈ memory.recordedPatches
  counted : recordedCommandCount log ≤ memory.stepSequence + memory.timerSequence + memory.childSequence
  timers : log.countP isTimerStarted = memory.timerSequence
  open' : cancelRequested log = false
  steps : ∀ number, memory.stepSequence < number → ∀ stepType, ∀ event ∈ log, stepOutcome ("step-" ++ toString number) stepType event = none
  fired : ∀ number, memory.timerSequence < number → ∀ event ∈ log, timerOutcome ("timer-" ++ toString number) event = none
  ended : ∀ number, memory.childSequence < number → ∀ event ∈ log, childOutcome ("child-" ++ toString number) event = none

variable {log base rest events : List WorkflowEvent} {memory next : InMemoryState} {replay : Replay}

theorem Records.append (records : Records log memory)
    (patches : ∀ patchId, patchId ∈ memory.recordedPatches ∨ patchId ∈ recordedPatchIds events ↔ patchId ∈ next.recordedPatches)
    (counted : memory.stepSequence + memory.timerSequence + memory.childSequence + recordedCommandCount events ≤
      next.stepSequence + next.timerSequence + next.childSequence)
    (timers : memory.timerSequence + events.countP isTimerStarted = next.timerSequence)
    (open' : cancelRequested events = false) (moreSteps : memory.stepSequence ≤ next.stepSequence)
    (moreTimers : memory.timerSequence ≤ next.timerSequence) (moreChildren : memory.childSequence ≤ next.childSequence)
    (steps : ∀ number, next.stepSequence < number → ∀ stepType, ∀ event ∈ events,
      stepOutcome ("step-" ++ toString number) stepType event = none)
    (fired : ∀ number, next.timerSequence < number → ∀ event ∈ events, timerOutcome ("timer-" ++ toString number) event = none)
    (ended : ∀ number, next.childSequence < number → ∀ event ∈ events, childOutcome ("child-" ++ toString number) event = none) :
    Records (log ++ events) next where
  patches patchId := by
    rw [← patches patchId, ← records.patches patchId, recordedPatchIds, List.filterMap_append, List.mem_append]
    rfl
  counted := by
    have before := records.counted
    rw [recordedCommandCount] at before counted ⊢
    rw [List.countP_append]
    omega
  timers := by rw [List.countP_append, records.timers, timers]
  open' := by rw [cancelRequested_append, records.open', open', Bool.or_false]
  steps number above stepType event listed := by
    rcases List.mem_append.mp listed with old | new
    · exact records.steps number (Nat.lt_of_le_of_lt moreSteps above) stepType event old
    · exact steps number above stepType event new
  fired number above event listed := by
    rcases List.mem_append.mp listed with old | new
    · exact records.fired number (Nat.lt_of_le_of_lt moreTimers above) event old
    · exact fired number above event new
  ended number above event listed := by
    rcases List.mem_append.mp listed with old | new
    · exact records.ended number (Nat.lt_of_le_of_lt moreChildren above) event old
    · exact ended number above event new

/-- The outcome of an event comes after a log that has none, and after the record of the command. -/
theorem nthOutcome_past (outcomeOf : WorkflowEvent → Option (Except JsValue JsValue)) (index : Nat)
    (none' : ∀ event ∈ base, outcomeOf event = none) (rest : List WorkflowEvent) :
    nthOutcome outcomeOf 0 index (base ++ rest) = nthOutcome outcomeOf 0 (index + base.length) rest := by
  induction base generalizing index with
  | nil => rfl
  | cons event base ih =>
    obtain ⟨here, later⟩ := List.forall_mem_cons.mp none'
    simp only [List.cons_append, nthOutcome, here]
    rw [ih (index + 1) later, List.length_cons, Nat.add_assoc, Nat.add_comm 1]

/-- A replay that stands at a recorded command matches it. -/
theorem Stands.matched {host : ReplayState Unit} {event : WorkflowEvent} {shape : CommandShape}
    (stands : Stands replay base [] memory host) (history : replay.history = base ++ event :: rest)
    (found : recordedCommandOf event = some shape) (same : sameCommand shape shape = true) :
    host.matcher.issue shape false = ({ host.matcher with issued := host.matcher.issued ++ [shape] }, .ok true) := by
  refine host.matcher.issue_matched shape shape ?_ same false
  have place := stands.issued
  rw [List.map_nil, List.append_nil] at place
  rw [CommandMatcher.expected, stands.recorded, history, recordedCommands_append, place, List.getElem?_append_right (le_refl _),
    Nat.sub_self, recordedCommands, List.filterMap_cons_some found]
  rfl

/-- A replay that has issued all recorded commands discovers the next one. -/
theorem Stands.discovers {host : ReplayState Unit} {fresh : List WorkflowCommand}
    (stands : Stands replay base fresh memory host) (history : replay.history = base) (shape : CommandShape) :
    host.matcher.issue shape false = ({ host.matcher with issued := host.matcher.issued ++ [shape] }, .ok false) := by
  refine host.matcher.issue_new shape ?_
  rw [CommandMatcher.expected, stands.recorded, history, stands.issued, recordedCommands_append]
  exact List.getElem?_eq_none (by rw [List.length_append]; exact Nat.le_add_right _ _)

end Places

section Calls

variable {replay : Replay} {base rest : List WorkflowEvent} {fresh : List WorkflowCommand} {memory : InMemoryState}
  {world : ReplayWorld Unit} {stepType workflowType patchId : String} {input : JsValue} {event : WorkflowEvent}
  {outcome : Except JsValue JsValue} {durationMs : JsNumber} {childOptions : ChildOptions}

theorem nthOutcome_answered {outcomeOf : WorkflowEvent → Option (Except JsValue JsValue)} {recorded : WorkflowEvent}
    (none' : ∀ event ∈ base, outcomeOf event = none) (skipped : outcomeOf recorded = none) (ends : outcomeOf event = some outcome) :
    nthOutcome outcomeOf 0 0 (base ++ recorded :: event :: rest) = some (base.length + 1, outcome) := by
  rw [nthOutcome_past outcomeOf 0 none']
  simp only [nthOutcome, skipped, ends, Nat.zero_add]

theorem nthOutcome_absent {outcomeOf : WorkflowEvent → Option (Except JsValue JsValue)}
    (none' : ∀ event ∈ base, outcomeOf event = none) : nthOutcome outcomeOf 0 0 base = none := by
  have past := nthOutcome_past outcomeOf 0 none' []
  rwa [List.append_nil] at past

/-- The matcher after one more command of the code. -/
def CommandMatcher.next (shape : CommandShape) (matcher : CommandMatcher) : CommandMatcher :=
  { matcher with issued := matcher.issued ++ [shape] }

theorem step_recorded (stands : Stands replay base [] memory world.host) (records : Records base memory)
    (history : replay.history = base ++ .stepScheduled ("step-" ++ toString (memory.stepSequence + 1)) stepType input :: event :: rest)
    (ends : stepOutcome ("step-" ++ toString (memory.stepSequence + 1)) stepType event = some outcome) :
    step replay false stepType input world = completedAt (base.length + 1) outcome (update (fun state => { state with
      stepSequence := state.stepSequence + 1
      matcher := state.matcher.next (.step ("step-" ++ toString (memory.stepSequence + 1)) stepType input) }) world) := by
  have matched := stands.matched history rfl (by simp [sameCommand])
  have answered : nthOutcome (stepOutcome ("step-" ++ toString (memory.stepSequence + 1)) stepType) 0 0 replay.history =
      some (base.length + 1, outcome) := by
    rw [history]
    exact nthOutcome_answered (records.steps _ (Nat.lt_succ_self _) stepType) rfl ends
  rw [step]
  dsimp only [issue, update]
  rw [stands.steps, matched]
  dsimp only
  rw [answered]
  rfl

theorem step_new (stands : Stands replay base fresh memory world.host) (records : Records (base ++ fresh.map commandToEvent) memory)
    (history : replay.history = base) :
    step replay false stepType input world = neverSettles (update (fun state => { state with
      stepSequence := state.stepSequence + 1
      matcher := state.matcher.next (.step ("step-" ++ toString (memory.stepSequence + 1)) stepType input)
      newCommands := state.newCommands ++ [.scheduleStep ("step-" ++ toString (memory.stepSequence + 1)) stepType input] }) world) := by
  have discovered := stands.discovers history (.step ("step-" ++ toString (memory.stepSequence + 1)) stepType input)
  have absent : nthOutcome (stepOutcome ("step-" ++ toString (memory.stepSequence + 1)) stepType) 0 0 replay.history = none := by
    rw [history]
    exact nthOutcome_absent fun event listed => records.steps _ (Nat.lt_succ_self _) stepType event (List.mem_append_left _ listed)
  rw [step]
  dsimp only [issue, update]
  rw [stands.steps, discovered]
  dsimp only
  rw [absent]
  rfl

theorem same_timer {duration : Rat} (valid : durationMs.sleepMs = some duration) (timerId : String) :
    sameCommand (.timer timerId (some durationMs)) (.timer timerId (some durationMs)) = true := by
  have itself : durationMs.same durationMs = true := JsNumber.same_refl (by rw [valid]; rfl)
  simp [sameCommand, itself]

theorem sleep_recorded {duration : Rat} {fireAt : Instant} (valid : durationMs.sleepMs = some duration)
    (stands : Stands replay base [] memory world.host) (records : Records base memory)
    (history : replay.history = base ++ .timerStarted ("timer-" ++ toString (memory.timerSequence + 1)) fireAt (some durationMs) ::
      .timerFired ("timer-" ++ toString (memory.timerSequence + 1)) :: rest) :
    sleep replay false durationMs world = completedAt (base.length + 1) (.ok .undefined) (update (fun state => { state with
      timerSequence := state.timerSequence + 1
      matcher := state.matcher.next (.timer ("timer-" ++ toString (memory.timerSequence + 1)) (some durationMs)) }) world) := by
  have matched := stands.matched history rfl (same_timer valid _)
  have answered : nthOutcome (timerOutcome ("timer-" ++ toString (memory.timerSequence + 1))) 0 0 replay.history =
      some (base.length + 1, .ok .undefined) := by
    rw [history]
    exact nthOutcome_answered (records.fired _ (Nat.lt_succ_self _)) rfl (if_pos rfl)
  rw [sleep, valid]
  dsimp only [issue, update]
  rw [stands.timers, matched]
  dsimp only
  rw [answered]
  rfl

theorem sleep_new {duration : Rat} {fireAt : Instant} (valid : durationMs.sleepMs = some duration)
    (stands : Stands replay base fresh memory world.host) (records : Records (base ++ fresh.map commandToEvent) memory)
    (history : replay.history = base) (unread : world.host.clockReads = 0)
    (dated : (replay.options.clock 0).after duration = some fireAt) :
    sleep replay false durationMs world = neverSettles (update (fun state => { state with
      timerSequence := state.timerSequence + 1
      matcher := state.matcher.next (.timer ("timer-" ++ toString (memory.timerSequence + 1)) (some durationMs))
      clockReads := state.clockReads + 1
      newCommands := state.newCommands ++
        [.startTimer ("timer-" ++ toString (memory.timerSequence + 1)) fireAt durationMs] }) world) := by
  have discovered := stands.discovers history (.timer ("timer-" ++ toString (memory.timerSequence + 1)) (some durationMs))
  have absent : nthOutcome (timerOutcome ("timer-" ++ toString (memory.timerSequence + 1))) 0 0 replay.history = none := by
    rw [history]
    exact nthOutcome_absent fun event listed => records.fired _ (Nat.lt_succ_self _) event (List.mem_append_left _ listed)
  rw [sleep, valid]
  dsimp only [issue, update]
  rw [stands.timers, discovered]
  dsimp only
  rw [absent]
  dsimp only [readClock, update]
  rw [unread, dated]
  rfl

/-- A child's call answers with the id and with what the context returns. -/
theorem startChild_recorded {policy : ParentClosePolicy} {runTimeoutMs executionTimeoutMs : Option JsNumber}
    (stands : Stands replay base [] memory world.host) (records : Records base memory)
    (room : ¬replay.options.childLimit < memory.childSequence + 1)
    (history : replay.history = base ++ .childStarted ("child-" ++ toString (memory.childSequence + 1)) workflowType input policy
      runTimeoutMs executionTimeoutMs :: event :: rest)
    (ends : childOutcome ("child-" ++ toString (memory.childSequence + 1)) event = some outcome) : ∃ call,
    call = completedAt (base.length + 1) outcome (update (fun state => { state with
      childSequence := state.childSequence + 1
      matcher := state.matcher.next (.child ("child-" ++ toString (memory.childSequence + 1)) workflowType input) }) world) ∧
    startChild replay false workflowType input childOptions world =
      (call.1, call.2.map fun result => ("child-" ++ toString (memory.childSequence + 1), result)) := by
  have matched := stands.matched history rfl (by simp [sameCommand])
  have answered : nthOutcome (childOutcome ("child-" ++ toString (memory.childSequence + 1))) 0 0 replay.history =
      some (base.length + 1, outcome) := by
    rw [history]
    exact nthOutcome_answered (records.ended _ (Nat.lt_succ_self _)) rfl ends
  rw [← stands.children] at room
  refine ⟨_, rfl, (if_neg room).trans ?_⟩
  dsimp only [issue, update]
  rw [stands.children, matched]
  dsimp only
  rw [answered]
  rfl

theorem startChild_new (stands : Stands replay base fresh memory world.host)
    (records : Records (base ++ fresh.map commandToEvent) memory) (history : replay.history = base)
    (room : ¬replay.options.childLimit < memory.childSequence + 1) : ∃ call,
    call = neverSettles (update (fun state => { state with
      childSequence := state.childSequence + 1
      matcher := state.matcher.next (.child ("child-" ++ toString (memory.childSequence + 1)) workflowType input)
      newCommands := state.newCommands ++ [.startChild ("child-" ++ toString (memory.childSequence + 1)) workflowType input
        (childOptions.parentClosePolicy.getD .cancel) childOptions.runTimeoutMs childOptions.executionTimeoutMs] }) world) ∧
    startChild replay false workflowType input childOptions world =
      (call.1, call.2.map fun result => ("child-" ++ toString (memory.childSequence + 1), result)) := by
  have discovered := stands.discovers history (.child ("child-" ++ toString (memory.childSequence + 1)) workflowType input)
  have absent : nthOutcome (childOutcome ("child-" ++ toString (memory.childSequence + 1))) 0 0 replay.history = none := by
    rw [history]
    exact nthOutcome_absent fun event listed => records.ended _ (Nat.lt_succ_self _) event (List.mem_append_left _ listed)
  rw [← stands.children] at room
  refine ⟨_, rfl, (if_neg room).trans ?_⟩
  dsimp only [issue, update]
  rw [stands.children, discovered]
  dsimp only
  rw [absent]
  rfl

theorem startChild_beyond (stands : Stands replay base fresh memory world.host)
    (beyond : replay.options.childLimit < memory.childSequence + 1) :
    startChild replay false workflowType input childOptions world =
      (update (fun state => { state with childSequence := state.childSequence + 1 }) world,
        .error (childLimitExceededError replay.options.childLimit)) := by
  rw [← stands.children] at beyond
  exact if_pos beyond

/-- A patch is decided once. -/
def consult (patchId : String) (state : ReplayState Unit) : ReplayState Unit :=
  { state with consultedPatches := state.consultedPatches ++ [patchId] }

theorem decidePatch_known (stands : Stands replay base fresh memory world.host) (known : patchId ∈ memory.recordedPatches) :
    decidePatch replay patchId world = (update (consult patchId) world, .ok true) := by
  have decided := stands.patches patchId
  rw [if_pos known] at decided
  rw [decidePatch]
  dsimp only [update]
  rw [decided]
  rfl

theorem decidePatch_recorded {buildId : Option String} (stands : Stands replay base [] memory world.host)
    (first : patchId ∉ memory.recordedPatches) (history : replay.history = base ++ .patchRecorded patchId buildId :: rest) :
    decidePatch replay patchId world = (update (fun state => { consult patchId state with
      matcher := state.matcher.next (.patch patchId)
      patchDecisions := state.patchDecisions ++ [(patchId, true)] }) world, .ok true) := by
  have undecided := stands.patches patchId
  rw [if_neg first] at undecided
  have held : patchId ∈ recordedPatchIds replay.history := by
    rw [history]
    exact List.mem_filterMap.mpr ⟨_, List.mem_append_right _ List.mem_cons_self, rfl⟩
  have matched := stands.matched history rfl (by simp [sameCommand])
  rw [decidePatch]
  dsimp only [update]
  rw [undecided]
  dsimp only
  rw [if_pos held]
  dsimp only [issue, update]
  rw [matched]
  rfl

theorem decidePatch_new (stands : Stands replay base fresh memory world.host)
    (records : Records (base ++ fresh.map commandToEvent) memory) (history : replay.history = base)
    (first : patchId ∉ memory.recordedPatches) :
    decidePatch replay patchId world = (update (fun state => { consult patchId state with
      matcher := state.matcher.next (.patch patchId)
      newCommands := state.newCommands ++ [.recordPatch patchId replay.options.buildId]
      patchDecisions := state.patchDecisions ++ [(patchId, true)] }) world, .ok true) := by
  have undecided := stands.patches patchId
  rw [if_neg first] at undecided
  have unheld : patchId ∉ recordedPatchIds replay.history := by
    rw [history]
    intro held
    refine first ((records.patches patchId).mp ?_)
    rw [recordedPatchIds, List.filterMap_append]
    exact List.mem_append_left _ held
  have caughtUp : ¬world.host.stepSequence + world.host.timerSequence + world.host.childSequence <
      recordedCommandCount replay.history := by
    have counted := records.counted
    rw [recordedCommandCount, List.countP_append] at counted
    rw [stands.steps, stands.timers, stands.children, history, recordedCommandCount]
    omega
  have discovered := stands.discovers history (.patch patchId)
  rw [decidePatch]
  dsimp only [update]
  rw [undecided]
  dsimp only
  rw [if_neg unheld]
  refine (if_neg caughtUp).trans ?_
  dsimp only [issue, update]
  rw [discovered]
  rfl

end Calls

section Progress

variable {replay : Replay} {begun : ReplayWorld Unit} {base rest log : List WorkflowEvent} {fresh : List WorkflowCommand}
  {memory next : InMemoryState} {host after : ReplayState Unit} {options : RunWorkflowOptions} {event : WorkflowEvent}
  {outcome : Except JsValue JsValue} {stepType workflowType patchId : String} {input : JsValue} {durationMs : JsNumber}
  {childOptions : ChildOptions} {going : Except JsValue JsValue → SequentialHandler}

/-- A replay comes to a call of its handler. What the code does from there on is what the replay does. -/
structure Comes (replay : Replay) (begun : ReplayWorld Unit) (base : List WorkflowEvent) (fresh : List WorkflowCommand)
    (memory : InMemoryState) (script : SequentialHandler) : Prop where
  records : Records (base ++ fresh.map commandToEvent) memory
  open' : cancelRequested replay.history = false
  leads : ∃ started world, Idle started world ∧ Stands replay base fresh memory world.host ∧ world.host.clockReads = 0 ∧
    ∀ final, RunsDry replay (awaited started (run (replayHost Unit replay) (script.code 0) world).1) final → RunsDry replay begun final

section Transitions

variable {started : Bool} {world : ReplayWorld Unit} {code : WorkflowCode Unit} {body : Except JsValue JsValue → WorkflowCode Unit}
  {change : ReplayState Unit → ReplayState Unit} {place : Nat}

/-- Code that waits for what the history ends goes on with its outcome. -/
theorem goes_delivered {call : ReplayWorld Unit × Except JsValue JsValue} (idle : Idle started world)
    (called : call = completedAt place outcome (update change world)) (kept : (change world.host).deliveries = [])
    (later : (change world.host).fedUpTo < (place : Int))
    (runs : call.2 = .ok (.promise world.promises.length) →
      (run (replayHost Unit replay) code world).1 = call.1.react world.promises.length (.code body))
    (leads : ∀ final, RunsDry replay (awaited started (run (replayHost Unit replay) code world).1) final → RunsDry replay begun final) :
    ∃ world', Idle true world' ∧ world'.host = { change world.host with fedUpTo := place } ∧ ∀ final,
      RunsDry replay (awaited true (run (replayHost Unit replay) (body outcome) world').1) final → RunsDry replay begun final := by
  obtain ⟨world', idle', host', promise, goes⟩ := settles_delivered (idle.update kept) body place outcome later
  refine ⟨world', idle', host', fun final settles => leads final ?_⟩
  rw [runs (by rw [called]; exact promise), called]
  exact goes final settles

/-- Code that waits for what the history does not end stops there. -/
theorem stops_never {call : ReplayWorld Unit × Except JsValue JsValue} (idle : Idle started world)
    (called : call = neverSettles (update change world)) (kept : (change world.host).deliveries = [])
    (runs : call.2 = .ok (.promise world.promises.length) →
      (run (replayHost Unit replay) code world).1 = call.1.react world.promises.length (.code body))
    (leads : ∀ final, RunsDry replay (awaited started (run (replayHost Unit replay) code world).1) final → RunsDry replay begun final) :
    ∃ final, final.host = change world.host ∧ RunsDry replay begun final := by
  obtain ⟨promise, final, host', settles⟩ := settles_never (idle.update kept) body
  refine ⟨final, host', leads final ?_⟩
  rw [runs (by rw [called]; exact promise), called]
  exact settles

/-- The two calls that start a child and wait for it: where they go on when they throw, and with the outcome. -/
inductive ChildCall (workflowType : String) (input : JsValue) (childOptions : ChildOptions) :
    SequentialHandler → (JsValue → SequentialHandler) → (String → Except JsValue JsValue → SequentialHandler) → Prop
  | handle (refused : JsValue → SequentialHandler) (next : JsValue → Except JsValue JsValue → SequentialHandler) :
      ChildCall workflowType input childOptions (.startChild workflowType input childOptions refused next) refused
        fun childId outcome => next (.string childId) outcome
  | result (next : Except JsValue JsValue → SequentialHandler) :
      ChildCall workflowType input childOptions (.executeChild workflowType input childOptions next)
        (fun thrown => next (.error thrown)) fun _ outcome => next outcome

theorem ChildCall.runs {script : SequentialHandler} {refused : JsValue → SequentialHandler}
    {more : String → Except JsValue JsValue → SequentialHandler} {call : ReplayWorld Unit × Except JsValue JsValue} {childId : String}
    {target : PromiseId} (child : ChildCall workflowType input childOptions script refused more)
    (open' : cancelRequested replay.history = false)
    (called : startChild replay false workflowType input childOptions world = (call.1, call.2.map fun result => (childId, result)))
    (promise : call.2 = .ok (.promise target)) :
    (run (replayHost Unit replay) (script.code 0) world).1 = call.1.react target (.code fun outcome => (more childId outcome).code 0) := by
  rw [promise] at called
  cases child with
  | handle refused next =>
    rw [SequentialHandler.code, run, show (replayHost Unit replay).call = contextCall replay from rfl, contextCall]
    dsimp only
    rw [open', Bool.and_false, called]
    rfl
  | result next =>
    refine congrArg Prod.fst (run_awaitCall fun callbacks running => ?_)
    rw [contextCall]
    dsimp only
    rw [open', Bool.and_false, called]
    rfl

theorem ChildCall.runs_thrown {script : SequentialHandler} {refused : JsValue → SequentialHandler}
    {more : String → Except JsValue JsValue → SequentialHandler} {after : ReplayWorld Unit} {thrown : JsValue}
    (child : ChildCall workflowType input childOptions script refused more) (open' : cancelRequested replay.history = false)
    (called : startChild replay false workflowType input childOptions world = (after, .error thrown)) :
    run (replayHost Unit replay) (script.code 0) world = run (replayHost Unit replay) ((refused thrown).code 0) after := by
  cases child with
  | handle refused next =>
    rw [SequentialHandler.code, run, show (replayHost Unit replay).call = contextCall replay from rfl, contextCall]
    dsimp only
    rw [open', Bool.and_false, called]
    rfl
  | result next =>
    refine run_awaitCall_thrown fun callbacks running => ?_
    rw [contextCall]
    dsimp only
    rw [open', Bool.and_false, called]
    rfl

end Transitions

section Logs

theorem stepOutcome_event {stepId : String} (ends : stepOutcome stepId stepType event = some outcome) :
    (∃ result, event = .stepCompleted stepId result) ∨ ∃ error exhausted, event = .stepFailed stepId error exhausted := by
  cases event with
  | stepCompleted id result =>
    rw [stepOutcome] at ends
    split at ends
    · next same => exact .inl ⟨result, by rw [same]⟩
    · cases ends
  | stepFailed id error exhausted =>
    rw [stepOutcome] at ends
    split at ends
    · next same => exact .inr ⟨error, exhausted, by rw [same]⟩
    · cases ends
  | _ => cases ends

theorem childOutcome_event {childId : String} (ends : childOutcome childId event = some outcome) :
    (∃ result, event = .childCompleted childId result) ∨ ∃ error, event = .childFailed childId error := by
  cases event with
  | childCompleted id result =>
    rw [childOutcome] at ends
    split at ends
    · next same => exact .inl ⟨result, by rw [same]⟩
    · cases ends
  | childFailed id error =>
    rw [childOutcome] at ends
    split at ends
    · next same => exact .inr ⟨error, by rw [same]⟩
    · cases ends
  | _ => cases ends

theorem numbered_apart (kind : String) {one two : Nat} (below : one < two) : kind ++ toString one ≠ kind ++ toString two :=
  fun same => absurd (numbered_injective kind one two same) (Nat.ne_of_lt below)

theorem Records.step (records : Records log memory)
    (ends : stepOutcome ("step-" ++ toString (memory.stepSequence + 1)) stepType event = some outcome) :
    Records (log ++ [.stepScheduled ("step-" ++ toString (memory.stepSequence + 1)) stepType input, event])
      (InMemory.step options stepType input memory).1 := by
  have grown : (InMemory.step options stepType input memory).1.stepSequence = memory.stepSequence + 1 := rfl
  rcases stepOutcome_event ends with ⟨result, rfl⟩ | ⟨error, exhausted, rfl⟩
  all_goals
    refine records.append (fun patchId => ?_) ?_ rfl rfl (Nat.le_succ _) (Nat.le_refl _) (Nat.le_refl _)
      (fun number above stepType event listed => ?_) (fun number above event listed => ?_) (fun number above event listed => ?_)
    · exact or_iff_left List.not_mem_nil
    · change _ + 1 ≤ memory.stepSequence + 1 + memory.timerSequence + memory.childSequence
      omega
    · rcases List.mem_pair.mp listed with rfl | rfl
      · rfl
      · exact if_neg (numbered_apart _ above)
    · rcases List.mem_pair.mp listed with rfl | rfl <;> rfl
    · rcases List.mem_pair.mp listed with rfl | rfl <;> rfl

theorem Records.timer {fireAt : Instant} (records : Records log memory) {after : InMemoryState}
    (grown : after.timerSequence = memory.timerSequence + 1) (steps : after.stepSequence = memory.stepSequence)
    (children : after.childSequence = memory.childSequence) (patches : after.recordedPatches = memory.recordedPatches) :
    Records (log ++ [.timerStarted ("timer-" ++ toString (memory.timerSequence + 1)) fireAt (some durationMs),
      .timerFired ("timer-" ++ toString (memory.timerSequence + 1))]) after := by
  refine records.append (fun patchId => ?_) ?_ grown.symm rfl (Nat.le_of_eq steps.symm) (by omega) (Nat.le_of_eq children.symm)
    (fun number above stepType event listed => ?_) (fun number above event listed => ?_) (fun number above event listed => ?_)
  · rw [patches]
    exact or_iff_left List.not_mem_nil
  · change _ + 1 ≤ _
    omega
  · rcases List.mem_pair.mp listed with rfl | rfl <;> rfl
  · rcases List.mem_pair.mp listed with rfl | rfl
    · rfl
    · exact if_neg (numbered_apart _ (grown ▸ above))
  · rcases List.mem_pair.mp listed with rfl | rfl <;> rfl

theorem Records.child {policy : ParentClosePolicy} {runTimeoutMs executionTimeoutMs : Option JsNumber}
    (records : Records log memory) {after : InMemoryState}
    (grown : after.childSequence = memory.childSequence + 1) (steps : after.stepSequence = memory.stepSequence)
    (timers : after.timerSequence = memory.timerSequence) (patches : after.recordedPatches = memory.recordedPatches)
    (ends : childOutcome ("child-" ++ toString (memory.childSequence + 1)) event = some outcome) :
    Records (log ++ [.childStarted ("child-" ++ toString (memory.childSequence + 1)) workflowType input policy runTimeoutMs
      executionTimeoutMs, event]) after := by
  rcases childOutcome_event ends with ⟨result, rfl⟩ | ⟨error, rfl⟩
  all_goals
    refine records.append (fun patchId => ?_) ?_ timers.symm rfl (Nat.le_of_eq steps.symm) (Nat.le_of_eq timers.symm) (by omega)
      (fun number above stepType event listed => ?_) (fun number above event listed => ?_) (fun number above event listed => ?_)
    · rw [patches]
      exact or_iff_left List.not_mem_nil
    · change _ + 1 ≤ _
      omega
    · rcases List.mem_pair.mp listed with rfl | rfl <;> rfl
    · rcases List.mem_pair.mp listed with rfl | rfl <;> rfl
    · rcases List.mem_pair.mp listed with rfl | rfl
      · rfl
      · exact if_neg (numbered_apart _ (grown ▸ above))

theorem Records.patch {buildId : Option String} (records : Records log memory) (first : patchId ∉ memory.recordedPatches) :
    Records (log ++ [.patchRecorded patchId buildId]) (InMemory.patched patchId memory) := by
  have shape : InMemory.patched patchId memory =
      { memory with recordedPatches := memory.recordedPatches ++ [patchId] }.push (.recordPatch patchId none) := if_neg first
  rw [shape]
  refine records.append (fun other => ?_) (Nat.le_refl _) rfl rfl (Nat.le_refl _) (Nat.le_refl _) (Nat.le_refl _)
    (fun number above stepType event listed => ?_) (fun number above event listed => ?_) (fun number above event listed => ?_)
  · exact List.mem_append.symm
  all_goals
    rw [List.mem_singleton.mp listed]
    rfl

end Logs

section Stands

/-- A replay that matched a recorded command and was fed its end. -/
theorem Stands.advance {shape : CommandShape} {recorded : WorkflowEvent} (stands : Stands replay base [] memory host)
    (found : recordedCommandOf recorded = some shape) (ended : recordedCommandOf event = none)
    (steps : after.stepSequence = next.stepSequence) (timers : after.timerSequence = next.timerSequence)
    (children : after.childSequence = next.childSequence) (matcher : after.matcher = host.matcher.next shape)
    (commands : after.newCommands = host.newCommands) (decisions : after.patchDecisions = host.patchDecisions)
    (consulted : after.consultedPatches = host.consultedPatches) (fed : after.fedUpTo = ((base.length + 1 : Nat) : Int))
    (continuation : after.continuation = host.continuation) (settled : after.settled = host.settled)
    (patches : next.recordedPatches = memory.recordedPatches) : Stands replay (base ++ [recorded, event]) [] next after where
  steps := steps
  timers := timers
  children := children
  recorded := by rw [matcher]; exact stands.recorded
  issued := by
    have before := stands.issued
    rw [List.map_nil, List.append_nil] at before ⊢
    rw [matcher, CommandMatcher.next, List.length_append, before, recordedCommands_append, List.length_append, recordedCommands,
      recordedCommands, List.filterMap_cons_some found, List.filterMap_cons_none ended]
    rfl
  commands := commands.trans stands.commands
  patches patchId := by rw [decisions, patches]; exact stands.patches patchId
  consulted patchId known := by rw [consulted]; exact stands.consulted patchId (patches ▸ known)
  fed := by
    rw [fed, List.length_append]
    change ((base.length + 1 : Nat) : Int) < ((base.length + 2 : Nat) : Int)
    omega
  going := continuation.trans stands.going
  settled := settled.trans stands.settled

/-- A replay that discovered a command. -/
theorem Stands.discover {shape : CommandShape} {command : WorkflowCommand} (stands : Stands replay base fresh memory host)
    (found : recordedCommandOf (commandToEvent command) = some shape)
    (steps : after.stepSequence = next.stepSequence) (timers : after.timerSequence = next.timerSequence)
    (children : after.childSequence = next.childSequence) (matcher : after.matcher = host.matcher.next shape)
    (commands : after.newCommands = host.newCommands ++ [command]) (decisions : after.patchDecisions = host.patchDecisions)
    (consulted : after.consultedPatches = host.consultedPatches) (fed : after.fedUpTo = host.fedUpTo)
    (continuation : after.continuation = host.continuation) (settled : after.settled = host.settled)
    (patches : next.recordedPatches = memory.recordedPatches) : Stands replay base (fresh ++ [command]) next after where
  steps := steps
  timers := timers
  children := children
  recorded := by rw [matcher]; exact stands.recorded
  issued := by
    rw [matcher, CommandMatcher.next, List.length_append, stands.issued, List.map_append, ← List.append_assoc,
      recordedCommands_append (base ++ fresh.map commandToEvent), List.length_append, List.map_singleton,
      recordedCommands.eq_def [commandToEvent command], List.filterMap_cons_some found]
    rfl
  commands := by rw [commands, stands.commands]
  patches patchId := by rw [decisions, patches]; exact stands.patches patchId
  consulted patchId known := by rw [consulted]; exact stands.consulted patchId (patches ▸ known)
  fed := by rw [fed]; exact stands.fed
  going := continuation.trans stands.going
  settled := settled.trans stands.settled

end Stands

end Progress

end DurableExecution.Workflow

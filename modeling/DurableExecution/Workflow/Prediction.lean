import DurableExecution.Workflow.SequentialReplay

/-
This file shows that the runner predicts the decisions of a run whose handler awaits each call.
-/

namespace DurableExecution.Workflow

open EventLoop

section Transitions

variable {replay : Replay} {begun : ReplayWorld Unit} {base rest : List WorkflowEvent} {fresh : List WorkflowCommand}
  {memory : InMemoryState} {options : RunWorkflowOptions} {event : WorkflowEvent} {outcome : Except JsValue JsValue}
  {stepType workflowType patchId : String} {input : JsValue} {durationMs : JsNumber} {childOptions : ChildOptions}
  {next : Except JsValue JsValue → SequentialHandler}

theorem fed_later {host : ReplayState Unit} (stands : Stands replay base fresh memory host) :
    host.fedUpTo < ((base.length + 1 : Nat) : Int) := by
  have fed := stands.fed
  omega

/-- A sleep whose fire time is a date. -/
theorem sleep_dated {duration : Rat} {fireAt : Instant} (valid : durationMs.sleepMs = some duration)
    (dated : (options.clock memory.timerSequence).after duration = some fireAt) :
    InMemory.sleep options durationMs memory = ({ memory with
      timerSequence := memory.timerSequence + 1
      commands := memory.commands ++ [.startTimer ("timer-" ++ toString (memory.timerSequence + 1)) fireAt durationMs] },
        .ok .undefined) := by
  rw [InMemory.sleep, valid]
  dsimp only
  rw [dated]
  rfl

/-- A child within the limit. -/
theorem startChild_room (room : ¬options.childLimit < memory.childSequence + 1) :
    InMemory.startChild options workflowType input childOptions memory = ({ memory with
      childSequence := memory.childSequence + 1
      commands := memory.commands ++ [.startChild ("child-" ++ toString (memory.childSequence + 1)) workflowType input
        (childOptions.parentClosePolicy.getD .cancel) none none] },
        .ok ("child-" ++ toString (memory.childSequence + 1), options.childOutcome (memory.childSequence + 1) workflowType input)) :=
  if_neg room

theorem Comes.step (comes : Comes replay begun base [] memory (.step stepType input next))
    (history : replay.history = base ++ .stepScheduled ("step-" ++ toString (memory.stepSequence + 1)) stepType input :: event :: rest)
    (ends : stepOutcome ("step-" ++ toString (memory.stepSequence + 1)) stepType event = some outcome) :
    Comes replay begun (base ++ [.stepScheduled ("step-" ++ toString (memory.stepSequence + 1)) stepType input, event]) []
      (InMemory.step options stepType input memory).1 (next outcome) := by
  obtain ⟨records, open', started, world, idle, stands, unread, leads⟩ := comes
  rw [List.map_nil, List.append_nil] at records
  have later := fed_later stands
  obtain ⟨world', idle', host', leads'⟩ := goes_delivered idle (step_recorded stands records history ends) idle.deliveries
    later (fun promise => congrArg Prod.fst (run_awaitCall fun _ _ => by
      rw [contextCall]
      dsimp only
      rw [open', Bool.and_false]
      exact Prod.ext rfl promise)) leads
  have ended : recordedCommandOf event = none := by
    rcases stepOutcome_event ends with ⟨result, rfl⟩ | ⟨error, exhausted, rfl⟩ <;> rfl
  refine ⟨by rw [List.map_nil, List.append_nil]; exact records.step ends, open', true, world', idle', ?_, ?_, leads'⟩
  · rw [host']
    exact stands.advance rfl ended (congrArg (· + 1) stands.steps) stands.timers stands.children rfl rfl rfl rfl rfl rfl rfl rfl
  · rw [host']
    exact unread

theorem Comes.sleep {duration : Rat} {fireAt : Instant} (valid : durationMs.sleepMs = some duration)
    (dated : (options.clock memory.timerSequence).after duration = some fireAt)
    (comes : Comes replay begun base [] memory (.sleep durationMs next))
    (history : replay.history = base ++ .timerStarted ("timer-" ++ toString (memory.timerSequence + 1)) fireAt (some durationMs) ::
      .timerFired ("timer-" ++ toString (memory.timerSequence + 1)) :: rest) :
    Comes replay begun (base ++ [.timerStarted ("timer-" ++ toString (memory.timerSequence + 1)) fireAt (some durationMs),
        .timerFired ("timer-" ++ toString (memory.timerSequence + 1))]) []
      (InMemory.sleep options durationMs memory).1 (next (.ok .undefined)) := by
  obtain ⟨records, open', started, world, idle, stands, unread, leads⟩ := comes
  rw [List.map_nil, List.append_nil] at records
  have later := fed_later stands
  obtain ⟨world', idle', host', leads'⟩ := goes_delivered idle (sleep_recorded valid stands records history) idle.deliveries
    later (fun promise => congrArg Prod.fst (run_awaitCall fun _ _ => by
      rw [contextCall]
      dsimp only
      rw [open', Bool.and_false]
      exact Prod.ext rfl promise)) leads
  rw [sleep_dated valid dated]
  refine ⟨by rw [List.map_nil, List.append_nil]; exact records.timer rfl rfl rfl rfl, open', true, world', idle', ?_, ?_, leads'⟩
  · rw [host']
    exact stands.advance rfl rfl stands.steps (congrArg (· + 1) stands.timers) stands.children rfl rfl rfl rfl rfl rfl rfl rfl
  · rw [host']
    exact unread

theorem Comes.child {script : SequentialHandler} {refused : JsValue → SequentialHandler}
    {more : String → Except JsValue JsValue → SequentialHandler} {policy : ParentClosePolicy}
    {runTimeoutMs executionTimeoutMs : Option JsNumber} (child : ChildCall workflowType input childOptions script refused more)
    (room : ¬options.childLimit < memory.childSequence + 1) (limit : replay.options.childLimit = options.childLimit)
    (comes : Comes replay begun base [] memory script)
    (history : replay.history = base ++ .childStarted ("child-" ++ toString (memory.childSequence + 1)) workflowType input policy
      runTimeoutMs executionTimeoutMs :: event :: rest)
    (ends : childOutcome ("child-" ++ toString (memory.childSequence + 1)) event = some outcome) :
    Comes replay begun (base ++ [.childStarted ("child-" ++ toString (memory.childSequence + 1)) workflowType input policy
        runTimeoutMs executionTimeoutMs, event]) [] (InMemory.startChild options workflowType input childOptions memory).1
      (more ("child-" ++ toString (memory.childSequence + 1)) outcome) := by
  obtain ⟨records, open', started, world, idle, stands, unread, leads⟩ := comes
  rw [List.map_nil, List.append_nil] at records
  obtain ⟨call, called, starts⟩ := startChild_recorded stands records (limit ▸ room) history ends
  have later := fed_later stands
  obtain ⟨world', idle', host', leads'⟩ := goes_delivered idle called idle.deliveries later
    (fun promise => child.runs open' starts promise) leads
  have ended : recordedCommandOf event = none := by
    rcases childOutcome_event ends with ⟨result, rfl⟩ | ⟨error, rfl⟩ <;> rfl
  rw [startChild_room room]
  refine ⟨by rw [List.map_nil, List.append_nil]; exact records.child rfl rfl rfl rfl ends, open', true, world', idle', ?_, ?_, leads'⟩
  · rw [host']
    exact stands.advance rfl ended stands.steps stands.timers (congrArg (· + 1) stands.children) rfl rfl rfl rfl rfl rfl rfl rfl
  · rw [host']
    exact unread

/-- A sleep that the context refuses goes on with its error. -/
theorem Comes.sleep_refused (invalid : durationMs.sleepMs = none) (comes : Comes replay begun base fresh memory (.sleep durationMs next)) :
    Comes replay begun base fresh memory (next (.error (invalidSleepDurationError durationMs))) := by
  obtain ⟨records, open', started, world, idle, stands, unread, leads⟩ := comes
  obtain ⟨world', idle', host', promise, goes⟩ := settles_rejected idle (fun outcome => (next outcome).code 0)
    (invalidSleepDurationError durationMs)
  refine ⟨records, open', true, world', idle', host' ▸ stands, host' ▸ unread, fun final settles => leads final ?_⟩
  have called : ∀ callbacks running, contextCall replay ⟨.workflow, .sleep durationMs⟩ callbacks running world =
      ((rejectedWith (invalidSleepDurationError durationMs) world).1, .ok (.promise world.promises.length)) := by
    intro callbacks running
    rw [contextCall]
    dsimp only
    rw [Workflow.sleep, invalid]
    exact Prod.ext rfl promise
  rw [SequentialHandler.code, run_awaitCall called]
  exact goes final settles

/-- A child beyond the limit is refused. -/
theorem Comes.child_refused {script : SequentialHandler} {refused : JsValue → SequentialHandler}
    {more : String → Except JsValue JsValue → SequentialHandler} (child : ChildCall workflowType input childOptions script refused more)
    (beyond : options.childLimit < memory.childSequence + 1) (limit : replay.options.childLimit = options.childLimit)
    (comes : Comes replay begun base fresh memory script) :
    Comes replay begun base fresh (InMemory.startChild options workflowType input childOptions memory).1
      (refused (childLimitExceededError options.childLimit)) := by
  obtain ⟨records, open', started, world, idle, stands, unread, leads⟩ := comes
  have starts : startChild replay false workflowType input childOptions world = _ := startChild_beyond stands (limit ▸ beyond)
  have shape : (InMemory.startChild options workflowType input childOptions memory).1 =
      { memory with childSequence := memory.childSequence + 1 } := congrArg Prod.fst (if_pos beyond)
  have later : Records (base ++ fresh.map commandToEvent ++ []) { memory with childSequence := memory.childSequence + 1 } :=
    records.append (fun _ => or_iff_left List.not_mem_nil) (by change _ + 0 ≤ _; dsimp only; omega) rfl rfl (Nat.le_refl _) (Nat.le_refl _)
    (Nat.le_succ _) (fun _ _ _ _ listed => absurd listed List.not_mem_nil) (fun _ _ _ listed => absurd listed List.not_mem_nil)
    fun _ _ _ listed => absurd listed List.not_mem_nil
  rw [List.append_nil] at later
  rw [shape]
  have idle' : Idle started (update (fun state => { state with childSequence := state.childSequence + 1 }) world) :=
    idle.update idle.deliveries
  refine ⟨later, open', started, _, idle', ?_, unread, fun final settles => leads final ?_⟩
  · exact { stands with children := congrArg (· + 1) stands.children }
  · rw [child.runs_thrown open' starts, limit]
    exact settles

theorem patched_first (first : patchId ∉ memory.recordedPatches) : InMemory.patched patchId memory = { memory with
    recordedPatches := memory.recordedPatches ++ [patchId], commands := memory.commands ++ [.recordPatch patchId none] } := if_neg first

/-- The decisions about patches after one more. -/
theorem lookup_decided {decisions : List (String × Bool)}
    (before : ∀ other, decisions.lookup other = if other ∈ memory.recordedPatches then some true else none) (other : String) :
    (decisions ++ [(patchId, true)]).lookup other = if other ∈ memory.recordedPatches ++ [patchId] then some true else none := by
  rw [List.lookup_append, before other]
  by_cases old : other ∈ memory.recordedPatches
  · rw [if_pos old, if_pos (List.mem_append_left _ old)]
    rfl
  · rw [if_neg old, Option.none_or, List.lookup_cons, List.lookup_nil]
    by_cases same : other = patchId
    · rw [if_pos (List.mem_append_right _ (List.mem_singleton.mpr same)), beq_iff_eq.mpr same]
    · rw [if_neg (fun held => (List.mem_append.mp held).elim old fun new => same (List.mem_singleton.mp new)), beq_false_of_ne same]

theorem run_patched {after : ReplayWorld Unit} {world : ReplayWorld Unit} (decided : decidePatch replay patchId world = (after, .ok true)) :
    run (replayHost Unit replay) ((SequentialHandler.patched patchId next).code 0) world =
      run (replayHost Unit replay) ((next (.ok (.bool true))).code 0) after := by
  rw [SequentialHandler.code, run, show (replayHost Unit replay).call = contextCall replay from rfl, contextCall]
  dsimp only
  rw [decided]
  rfl

theorem Comes.patch_known (known : patchId ∈ memory.recordedPatches)
    (comes : Comes replay begun base fresh memory (.patched patchId next)) :
    Comes replay begun base fresh (InMemory.patched patchId memory) (next (.ok (.bool true))) := by
  obtain ⟨records, open', started, world, idle, stands, unread, leads⟩ := comes
  have shape : InMemory.patched patchId memory = memory := if_pos known
  have idle' : Idle started (update (consult patchId) world) := idle.update idle.deliveries
  rw [shape]
  refine ⟨records, open', started, _, idle', ?_, unread, fun final settles => leads final ?_⟩
  · exact { stands with consulted := fun other held => List.mem_append_left _ (stands.consulted other held) }
  · rw [run_patched (decidePatch_known stands known)]
    exact settles

theorem consulted_more {consulted : List String} (before : ∀ other ∈ memory.recordedPatches, other ∈ consulted) (other : String)
    (held : other ∈ memory.recordedPatches ++ [patchId]) : other ∈ consulted ++ [patchId] :=
  List.mem_append.mpr ((List.mem_append.mp held).imp (before other) id)

/-- A patch that no event records is recorded by this decision. -/
theorem Comes.patch_new (first : patchId ∉ memory.recordedPatches) (history : replay.history = base)
    (comes : Comes replay begun base fresh memory (.patched patchId next)) :
    Comes replay begun base (fresh ++ [.recordPatch patchId replay.options.buildId]) (InMemory.patched patchId memory)
      (next (.ok (.bool true))) := by
  obtain ⟨records, open', started, world, idle, stands, unread, leads⟩ := comes
  have later : Records (base ++ (fresh ++ [WorkflowCommand.recordPatch patchId replay.options.buildId]).map commandToEvent)
      (InMemory.patched patchId memory) := by
    rw [List.map_append, ← List.append_assoc]
    exact records.patch first
  have idle' : Idle started (update (fun state => { consult patchId state with
      matcher := state.matcher.next (.patch patchId)
      newCommands := state.newCommands ++ [.recordPatch patchId replay.options.buildId]
      patchDecisions := state.patchDecisions ++ [(patchId, true)] }) world) := idle.update idle.deliveries
  refine ⟨later, open', started, _, idle', ?_, unread, fun final settles => leads final ?_⟩
  · rw [patched_first first]
    exact { stands with
      issued := by
        change (world.host.matcher.issued ++ [CommandShape.patch patchId]).length = _
        rw [List.length_append, stands.issued, List.map_append, ← List.append_assoc,
          recordedCommands_append (base ++ fresh.map commandToEvent), List.length_append]
        rfl
      commands := congrArg (· ++ [WorkflowCommand.recordPatch patchId replay.options.buildId]) stands.commands
      patches := lookup_decided stands.patches
      consulted := consulted_more stands.consulted }
  · rw [run_patched (decidePatch_new stands records history first)]
    exact settles

theorem Comes.patch_recorded {buildId : Option String} (first : patchId ∉ memory.recordedPatches)
    (comes : Comes replay begun base [] memory (.patched patchId next))
    (history : replay.history = base ++ .patchRecorded patchId buildId :: rest) :
    Comes replay begun (base ++ [.patchRecorded patchId buildId]) [] (InMemory.patched patchId memory) (next (.ok (.bool true))) := by
  obtain ⟨records, open', started, world, idle, stands, unread, leads⟩ := comes
  rw [List.map_nil, List.append_nil] at records
  have later : Records (base ++ [.patchRecorded patchId buildId] ++ [].map commandToEvent) (InMemory.patched patchId memory) := by
    rw [List.map_nil, List.append_nil]
    exact records.patch first
  have idle' : Idle started (update (fun state => { consult patchId state with
      matcher := state.matcher.next (.patch patchId)
      patchDecisions := state.patchDecisions ++ [(patchId, true)] }) world) := idle.update idle.deliveries
  refine ⟨later, open', started, _, idle', ?_, unread, fun final settles => leads final ?_⟩
  · rw [patched_first first]
    exact { stands with
      issued := by
        have before := stands.issued
        rw [List.map_nil, List.append_nil] at before ⊢
        change (world.host.matcher.issued ++ [CommandShape.patch patchId]).length = _
        rw [List.length_append, before, recordedCommands_append, List.length_append]
        rfl
      patches := lookup_decided stands.patches
      consulted := consulted_more stands.consulted
      fed := by
        have fed := stands.fed
        change world.host.fedUpTo < _
        rw [List.length_append]
        omega }
  · rw [run_patched (decidePatch_recorded stands first history)]
    exact settles

end Transitions

section Stops

variable {replay : Replay} {begun : ReplayWorld Unit} {base : List WorkflowEvent} {fresh : List WorkflowCommand}
  {memory : InMemoryState} {options : RunWorkflowOptions} {stepType workflowType : String} {input : JsValue} {durationMs : JsNumber}
  {childOptions : ChildOptions} {next : Except JsValue JsValue → SequentialHandler}

/-- Where a decision stops at a command that it discovered. -/
structure StopsAt (replay : Replay) (begun : ReplayWorld Unit) (base : List WorkflowEvent) (fresh : List WorkflowCommand)
    (command : WorkflowCommand) (memory : InMemoryState) : Prop where
  ends : ∃ final, RunsDry replay begun final ∧ Stands replay base (fresh ++ [command]) memory final.host

theorem Comes.stops_step (history : replay.history = base) (comes : Comes replay begun base fresh memory (.step stepType input next)) :
    StopsAt replay begun base fresh (.scheduleStep ("step-" ++ toString (memory.stepSequence + 1)) stepType input)
      (InMemory.step options stepType input memory).1 := by
  obtain ⟨records, open', started, world, idle, stands, unread, leads⟩ := comes
  obtain ⟨final, host', settles⟩ := stops_never idle (step_new stands records history) idle.deliveries
    (fun promise => congrArg Prod.fst (run_awaitCall fun _ _ => by
      rw [contextCall]
      dsimp only
      rw [open', Bool.and_false]
      exact Prod.ext rfl promise)) leads
  refine ⟨final, settles, ?_⟩
  rw [host']
  exact stands.discover rfl (congrArg (· + 1) stands.steps) stands.timers stands.children rfl rfl rfl rfl rfl rfl rfl rfl

theorem Comes.stops_sleep {duration : Rat} {fireAt : Instant} (valid : durationMs.sleepMs = some duration)
    (dated : (options.clock memory.timerSequence).after duration = some fireAt) (history : replay.history = base)
    (clock : replay.options.clock 0 = options.clock memory.timerSequence)
    (comes : Comes replay begun base fresh memory (.sleep durationMs next)) :
    StopsAt replay begun base fresh (.startTimer ("timer-" ++ toString (memory.timerSequence + 1)) fireAt durationMs)
      (InMemory.sleep options durationMs memory).1 := by
  obtain ⟨records, open', started, world, idle, stands, unread, leads⟩ := comes
  obtain ⟨final, host', settles⟩ := stops_never idle (sleep_new valid stands records history unread (clock ▸ dated)) idle.deliveries
    (fun promise => congrArg Prod.fst (run_awaitCall fun _ _ => by
      rw [contextCall]
      dsimp only
      rw [open', Bool.and_false]
      exact Prod.ext rfl promise)) leads
  refine ⟨final, settles, ?_⟩
  rw [host', sleep_dated valid dated]
  exact stands.discover rfl stands.steps (congrArg (· + 1) stands.timers) stands.children rfl rfl rfl rfl rfl rfl rfl rfl

theorem Comes.stops_child {script : SequentialHandler} {refused : JsValue → SequentialHandler}
    {more : String → Except JsValue JsValue → SequentialHandler} (child : ChildCall workflowType input childOptions script refused more)
    (room : ¬options.childLimit < memory.childSequence + 1) (limit : replay.options.childLimit = options.childLimit)
    (history : replay.history = base) (comes : Comes replay begun base fresh memory script) :
    StopsAt replay begun base fresh (.startChild ("child-" ++ toString (memory.childSequence + 1)) workflowType input
        (childOptions.parentClosePolicy.getD .cancel) childOptions.runTimeoutMs childOptions.executionTimeoutMs)
      (InMemory.startChild options workflowType input childOptions memory).1 := by
  obtain ⟨records, open', started, world, idle, stands, unread, leads⟩ := comes
  obtain ⟨call, called, starts⟩ := startChild_new stands records history (limit ▸ room)
  obtain ⟨final, host', settles⟩ := stops_never idle called idle.deliveries (fun promise => child.runs open' starts promise) leads
  refine ⟨final, settles, ?_⟩
  rw [host', startChild_room room]
  exact stands.discover rfl stands.steps stands.timers (congrArg (· + 1) stands.children) rfl rfl rfl rfl rfl rfl rfl rfl

/-- The replay of a handler that continues as new stops there, and remembers the input. -/
theorem Comes.continues (comes : Comes replay begun base fresh memory (.continueAsNew input next)) :
    ∃ host, Stands replay base fresh memory host ∧ ∃ final, RunsDry replay begun final ∧
      final.host = { host with continuation := some input } := by
  obtain ⟨records, open', started, world, idle, stands, unread, leads⟩ := comes
  have called : continueAsNew replay input world = neverSettles (update (fun state => { state with
      continuation := some (state.continuation.getD input) }) world) := if_neg (by rw [open']; exact Bool.false_ne_true)
  obtain ⟨final, host', settles⟩ := stops_never idle called idle.deliveries
    (fun promise => congrArg Prod.fst (run_awaitCall fun _ _ => by
      rw [contextCall]
      exact Prod.ext rfl promise)) leads
  refine ⟨world.host, stands, final, settles, host'.trans ?_⟩
  rw [stands.going]
  rfl

/-- The replay of a handler that ends. -/
theorem Comes.finishes {completion : Except JsValue JsValue} (comes : Comes replay begun base fresh memory (.finish completion)) :
    ∃ host, Stands replay base fresh memory host ∧ ∃ final, RunsDry replay begun final ∧ final.host = { host with
      settled := some (Settled.of completion), handlerDone := true } := by
  obtain ⟨records, open', started, world, idle, stands, unread, leads⟩ := comes
  obtain ⟨final, host', settles⟩ := settles_finish idle completion
  exact ⟨world.host, stands, final, leads final settles, host'⟩

end Stops

section Decisions

variable {replay : Replay} {base log : List WorkflowEvent} {fresh : List WorkflowCommand} {memory : InMemoryState}
  {root : JsValue → SequentialHandler} {input : JsValue} {final : ReplayWorld Unit} {host : ReplayState Unit}

/-- A replay of a handler once the handler has returned its promise. -/
def begunReplay (replay : Replay) (root : JsValue → SequentialHandler) (input : JsValue) : ReplayWorld Unit :=
  awaited false (startHandler replay (SequentialHandler.handler root) input).1

theorem comes_initially {workflowType : String} (open' : cancelRequested replay.history = false) :
    Comes replay (begunReplay replay root input) [.runStarted workflowType input] [] .empty (root input) := by
  have records : Records [.runStarted workflowType input] .empty := by
    refine ⟨fun _ => Iff.rfl, Nat.le_refl _, rfl, rfl, fun _ _ _ event listed => ?_, fun _ _ event listed => ?_, fun _ _ event listed => ?_⟩
    all_goals
      rw [List.mem_singleton.mp listed]
      rfl
  refine ⟨records, open', false, _, ⟨rfl, rfl, rfl⟩, ?_, rfl, fun final settles => settles⟩
  exact ⟨rfl, rfl, rfl, rfl, rfl, rfl, fun _ => rfl, fun _ listed => absurd listed List.not_mem_nil,
    Int.negSucc_lt_zero 0 |>.trans Int.one_pos, rfl, rfl⟩

/-- What a replay settles into is what its decision is made from. -/
theorem RunsDry.decides (open' : cancelRequested replay.history = false) (settles : RunsDry replay (begunReplay replay root input) final) :
    ∃ fuel, runDecisionLoop fuel replay (SequentialHandler.handler root) input = some (decideFrom replay final) := by
  obtain ⟨fuel, quiet, drained, feeds⟩ := settles
  obtain ⟨bound, ends⟩ := feeds.rounds
  have settled : settle replay (fuel + bound) (begunReplay replay root input) = some final := by
    rw [settle, drain_more _ fuel bound _ _ drained]
    exact ends _ _ (Nat.le_add_left _ _) (Nat.le_add_left _ _)
  have begins : startHandler replay (SequentialHandler.handler root) input =
      ((startHandler replay (SequentialHandler.handler root) input).1, .ok (.promise 0)) := Prod.ext rfl (code_returns 0 (root input) _)
  refine ⟨fuel + bound, ?_⟩
  rw [runDecisionLoop, replayHistory, begins]
  dsimp only
  change (((settle replay (fuel + bound) (begunReplay replay root input)).bind _).map _) = _
  rw [settled]
  simp only [compensationsDue, open', Bool.false_and, Bool.false_eq_true, ↓reduceIte, Option.bind_some, Option.map_some, Except.bind]

theorem runDecisionLoop_unique {handler : WorkflowHandler Unit} {one two : Nat} {left right : Except JsValue Decision}
    (first : runDecisionLoop one replay handler input = some left) (second : runDecisionLoop two replay handler input = some right) :
    left = right := by
  obtain ⟨outcome, replayed, rfl⟩ := Option.map_eq_some_iff.mp first
  obtain ⟨outcome', replayed', rfl⟩ := Option.map_eq_some_iff.mp second
  rw [replayHistory_unique replay handler input one two _ _ replayed replayed']

/-- A replay that issued all recorded commands and asked about all recorded patches is trusted. -/
theorem Stands.trusted (stands : Stands replay base fresh memory host) (history : replay.history = base)
    (known : ∀ patchId ∈ recordedPatchIds base, patchId ∈ memory.recordedPatches)
    (matcher : final.host.matcher = host.matcher) (consulted : final.host.consultedPatches = host.consultedPatches)
    (intact : integrityFailure final.host.settled = none) :
    decideFrom replay final = .ok ⟨(conclude replay final).1, (conclude replay final).2, historyWarning replay⟩ := by
  have asked : unconsultedPatches replay final = [] := by
    have none' : (recordedPatchIds replay.history).filter (fun id => id ∉ final.host.consultedPatches) = [] := by
      refine List.filter_eq_nil_iff.mpr fun patchId held => ?_
      rw [decide_eq_true_eq, not_not, consulted]
      exact stands.consulted patchId (known patchId (history ▸ held))
    rw [unconsultedPatches, none']
    rfl
  have all : final.host.matcher.assertAllIssued = none := by
    rw [CommandMatcher.assertAllIssued_iff, matcher, stands.recorded, stands.issued, history, recordedCommands_append, List.length_append]
    exact Nat.le_add_right _ _
  simp only [decideFrom, asked, show throwOnVersionMismatch replay [] = none from rfl, intact, all]

/-- A replay that stops at a command it discovered suspends the run. -/
theorem Stands.suspends (stands : Stands replay base fresh memory final.host) (history : replay.history = base)
    (known : ∀ patchId ∈ recordedPatchIds base, patchId ∈ memory.recordedPatches) (open' : cancelRequested replay.history = false) :
    decideFrom replay final = .ok ⟨.suspended, fresh, historyWarning replay⟩ := by
  rw [stands.trusted history known rfl rfl (by rw [stands.settled]; rfl), conclude, open', stands.going, stands.settled, stands.commands]
  rfl

end Decisions

section Prediction

variable {options : RunWorkflowOptions} {ends : WorkflowCommand → Option WorkflowEvent} {root : JsValue → SequentialHandler}
  {input : JsValue} {past : List WorkflowCommand} {log : List WorkflowEvent} {memory : InMemoryState} {script : SequentialHandler}

/-- What the runner expects of the rest of a run: `past` are the commands before it. The patches of a decision that
continues as new are dropped. -/
def Expected (past : List WorkflowCommand) (ended : InMemoryState × HandlerEnd) (commands : List WorkflowCommand)
    (outcome : DecisionOutcome) : Prop :=
  match ended with
  | (state, .continued input) => outcome = .continuedAsNew input ∧ ∃ earlier dropped, commands = earlier ++ [.continueAsNew input] ∧
    (past ++ earlier ++ dropped).map WorkflowCommand.predicted = state.commands ∧
      ∀ command ∈ dropped, ∃ patchId buildId, command = .recordPatch patchId buildId
  | (state, .settled (.ok result)) => outcome = .completed result ∧
    (past ++ commands).map WorkflowCommand.predicted = state.commands ++ [.completeRun result]
  | (state, .settled (.error reason)) => outcome = .failed (toError reason) ∧
    (past ++ commands).map WorkflowCommand.predicted = state.commands ++ [.failRun (toRecordedError (toError reason))]

theorem Expected.shift {ended : InMemoryState × HandlerEnd} {more commands : List WorkflowCommand} {outcome : DecisionOutcome}
    (expected : Expected (past ++ more) ended commands outcome) : Expected past ended (more ++ commands) outcome := by
  unfold Expected at expected ⊢
  split at expected
  · next state input =>
      obtain ⟨same, earlier, dropped, rfl, predicted, patches⟩ := expected
      refine ⟨same, more ++ earlier, dropped, (List.append_assoc _ _ _).symm, ?_, patches⟩
      rwa [List.append_assoc past] at predicted
  · rwa [List.append_assoc] at expected
  · rwa [List.append_assoc] at expected

/-- However a log is driven to its end, the rest is as the runner expects. -/
def Foretold (options : RunWorkflowOptions) (ends : WorkflowCommand → Option WorkflowEvent) (root : JsValue → SequentialHandler)
    (input : JsValue) (past : List WorkflowCommand) (log : List WorkflowEvent) (ended : InMemoryState × HandlerEnd) : Prop :=
  (∃ commands outcome, Drives (SequentialHandler.handler root) input ends options.Shares log commands outcome) ∧
    ∀ commands outcome, Drives (SequentialHandler.handler root) input ends options.Shares log commands outcome →
      Expected past ended commands outcome

/-- A decision that ends the run as expected, or after which the rest is as expected. -/
structure Decides (options : RunWorkflowOptions) (ends : WorkflowCommand → Option WorkflowEvent) (root : JsValue → SequentialHandler)
    (input : JsValue) (past : List WorkflowCommand) (replay : Replay) (ended : InMemoryState × HandlerEnd)
    (decision : Decision) : Prop where
  made : ∃ fuel, runDecisionLoop fuel replay (SequentialHandler.handler root) input = some (.ok decision)
  expected : decision.outcome ≠ .suspended ∧ Expected past ended decision.commands decision.outcome ∨
    decision.outcome = .suspended ∧ Foretold options ends root input (past ++ decision.commands)
      (replay.history ++ decision.commands.map commandToEvent ++ decision.commands.filterMap ends) ended

/-- The decisions over a log foretell the rest. -/
theorem foretold {ended : InMemoryState × HandlerEnd} (decides : ∀ replay : Replay, replay.history = log → options.Shares replay →
      ∃ decision, Decides options ends root input past replay ended decision) : Foretold options ends root input past log ended := by
  constructor
  · let sharing : DecisionLoopOptions := ⟨fun _ => options.clock (log.countP isTimerStarted), ⟨fun _ => .finite 0, fun _ => ""⟩, none,
      some options.childLimit, none, none⟩
    have met : options.Shares ⟨log, sharing⟩ := ⟨rfl, rfl⟩
    obtain ⟨decision, ⟨fuel, made⟩, expected⟩ := decides ⟨log, sharing⟩ rfl met
    rcases expected with ⟨ended, -⟩ | ⟨waits, ⟨commands, outcome, drives⟩, -⟩
    · exact ⟨_, _, .ended log sharing fuel decision met made ended⟩
    · exact ⟨_, _, .decided log sharing fuel decision commands outcome met made waits drives⟩
  · intro commands outcome drives
    cases drives with
    | ended _ options' fuel decision met made over' =>
      obtain ⟨decision', ⟨fuel', made'⟩, expected⟩ := decides ⟨log, options'⟩ rfl met
      obtain rfl := Except.ok.inj (runDecisionLoop_unique made made')
      exact expected.elim And.right fun waits => absurd waits.1 over'
    | decided _ options' fuel decision commands outcome met made waits rest =>
      obtain ⟨decision', ⟨fuel', made'⟩, expected⟩ := decides ⟨log, options'⟩ rfl met
      obtain rfl := Except.ok.inj (runDecisionLoop_unique made made')
      rcases expected with ⟨over', -⟩ | ⟨-, -, all⟩
      · exact absurd waits over'
      · exact (all commands outcome rest).shift

/-- A decision that stops at a command, after whose end the rest is foretold. -/
theorem StopsAt.decides {replay : Replay} {base : List WorkflowEvent} {fresh : List WorkflowCommand} {command : WorkflowCommand}
    {event : WorkflowEvent} {ended : InMemoryState × HandlerEnd}
    (stops : StopsAt replay (begunReplay replay root input) base fresh command memory) (history : replay.history = base)
    (known : ∀ patchId ∈ recordedPatchIds base, patchId ∈ memory.recordedPatches) (open' : cancelRequested replay.history = false)
    (unanswered : fresh.filterMap ends = []) (answer : ends command = some event)
    (rest : Foretold options ends root input (past ++ fresh ++ [command])
      (base ++ fresh.map commandToEvent ++ [commandToEvent command, event]) ended) :
    ∃ decision, Decides options ends root input past replay ended decision := by
  obtain ⟨final, settles, stands⟩ := stops.ends
  obtain ⟨fuel, made⟩ := settles.decides open'
  rw [stands.suspends history known open'] at made
  refine ⟨_, ⟨fuel, made⟩, .inr ⟨rfl, ?_⟩⟩
  have logs : replay.history ++ (fresh ++ [command]).map commandToEvent ++ (fresh ++ [command]).filterMap ends =
      base ++ fresh.map commandToEvent ++ [commandToEvent command, event] := by
    rw [history, List.filterMap_append, unanswered, List.map_append, List.filterMap_cons_some answer, List.filterMap_nil]
    simp
  rw [logs, ← List.append_assoc]
  exact rest

theorem unrepresentable_child (options : RunWorkflowOptions) (workflowType : String) (input : JsValue) (childOptions : ChildOptions)
    (memory : InMemoryState) :
    (InMemory.startChild options workflowType input childOptions memory).1.unrepresentableTimers = memory.unrepresentableTimers := by
  rw [InMemory.startChild]
  dsimp only
  split <;> rfl

theorem unrepresentable_patched (patchId : String) (memory : InMemoryState) :
    (InMemory.patched patchId memory).unrepresentableTimers = memory.unrepresentableTimers := by
  rw [InMemory.patched]
  split <;> rfl

/-- The run in memory forgets no timer without a date. -/
theorem unrepresentable_grows (options : RunWorkflowOptions) (script : SequentialHandler) (memory : InMemoryState) :
    memory.unrepresentableTimers <+: (script.runInMemory options memory).1.unrepresentableTimers := by
  induction script generalizing memory with
  | finish completion => exact List.prefix_rfl
  | continueAsNew input next => exact List.prefix_rfl
  | step stepType input next ih => exact ih _ (InMemory.step options stepType input memory).1
  | patched patchId next ih => exact unrepresentable_patched patchId memory ▸ ih _ (InMemory.patched patchId memory)
  | sleep durationMs next ih =>
    have grown : memory.unrepresentableTimers <+: (InMemory.sleep options durationMs memory).1.unrepresentableTimers := by
      rw [InMemory.sleep]
      split
      · exact List.prefix_rfl
      · dsimp only
        split
        · exact List.prefix_append _ _
        · exact List.prefix_rfl
    exact grown.trans (ih _ _)
  | startChild workflowType input childOptions refused next refusedGrows ih =>
    rw [SequentialHandler.runInMemory, ← unrepresentable_child options workflowType input childOptions memory]
    split
    · exact refusedGrows _ _
    · exact ih _ _ _
  | executeChild workflowType input childOptions next ih =>
    rw [SequentialHandler.runInMemory, ← unrepresentable_child options workflowType input childOptions memory]
    split
    · exact ih _ _
    · exact ih _ _

/-- What a run in memory needs so that the runner predicts it: the fire times are dates, and the handler rejects with none of
the errors that refuse a decision. -/
structure Predictable (ended : InMemoryState × HandlerEnd) : Prop where
  dated : ended.1.unrepresentableTimers = []
  trusted : ∀ reason, ended.2 = .settled (.error reason) → isIntegrityError (toError reason) = false

/-- A place in a decision over `base`: the replay has come to a call, and so will each later replay once the log holds the
commands that this one discovered. -/
structure Reached (options : RunWorkflowOptions) (ends : WorkflowCommand → Option WorkflowEvent) (root : JsValue → SequentialHandler)
    (input : JsValue) (past : List WorkflowCommand) (replay : Replay) (fresh : List WorkflowCommand) (memory : InMemoryState)
    (script : SequentialHandler) : Prop where
  shares : options.Shares replay
  now : Comes replay (begunReplay replay root input) replay.history fresh memory script
  later : ∀ (next : Replay) (rest : List WorkflowEvent), next.history = replay.history ++ fresh.map commandToEvent ++ rest →
    cancelRequested rest = false → next.options.childLimit = options.childLimit →
      Comes next (begunReplay next root input) (replay.history ++ fresh.map commandToEvent) [] memory script
  commands : memory.commands = (past ++ fresh).map WorkflowCommand.predicted
  patches : ∀ command ∈ fresh, ∃ patchId buildId, command = .recordPatch patchId buildId

section Reaching

variable {replay : Replay} {fresh : List WorkflowCommand} {event : WorkflowEvent} {command : WorkflowCommand} {next : InMemoryState}
  {onward : SequentialHandler}

theorem Reached.known (reached : Reached options ends root input past replay fresh memory script) :
    ∀ patchId ∈ recordedPatchIds replay.history, patchId ∈ memory.recordedPatches := by
  intro patchId held
  refine (reached.now.records.patches patchId).mp ?_
  rw [recordedPatchIds, List.filterMap_append]
  exact List.mem_append_left _ held

/-- Patches are answered by no event. -/
theorem Reached.unanswered (reached : Reached options ends root input past replay fresh memory script)
    (same : SameResults options ends) : fresh.filterMap ends = [] := by
  refine List.filterMap_eq_nil_iff.mpr fun command listed => ?_
  obtain ⟨patchId, buildId, rfl⟩ := reached.patches command listed
  exact same.patch patchId buildId

theorem Reached.clock (reached : Reached options ends root input past replay fresh memory script) :
    replay.options.clock 0 = options.clock memory.timerSequence := by
  have none' : (fresh.map commandToEvent).countP isTimerStarted = 0 := by
    refine List.countP_eq_zero.mpr fun event listed => ?_
    obtain ⟨command, inside, rfl⟩ := List.mem_map.mp listed
    obtain ⟨patchId, buildId, rfl⟩ := reached.patches command inside
    exact Bool.false_ne_true
  have timers := reached.now.records.timers
  rw [List.countP_append, none', Nat.add_zero] at timers
  rw [reached.shares.clock, timers]

/-- After the end of a command each decision comes to what follows it. -/
theorem Reached.answered (reached : Reached options ends root input past replay fresh memory script)
    (goes : ∀ (replay' : Replay) (base rest : List WorkflowEvent), cancelRequested replay'.history = false →
      replay'.options.childLimit = options.childLimit → Comes replay' (begunReplay replay' root input) base [] memory script →
      replay'.history = base ++ commandToEvent command :: event :: rest →
        Comes replay' (begunReplay replay' root input) (base ++ [commandToEvent command, event]) [] next onward)
    (open' : cancelRequested [commandToEvent command, event] = false)
    (commands : next.commands = memory.commands ++ [command.predicted]) (replay' : Replay)
    (history : replay'.history = replay.history ++ fresh.map commandToEvent ++ [commandToEvent command, event])
    (shares : options.Shares replay') : Reached options ends root input (past ++ fresh ++ [command]) replay' [] next onward := by
  have comes (replay'' : Replay) (rest : List WorkflowEvent) (open'' : cancelRequested rest = false)
      (limit : replay''.options.childLimit = options.childLimit)
      (longer : replay''.history = replay'.history ++ rest) :
      Comes replay'' (begunReplay replay'' root input) replay'.history [] next onward := by
    rw [history, List.append_assoc] at longer
    have before := reached.later replay'' ([commandToEvent command, event] ++ rest) longer
      (by rw [cancelRequested_append, open', open'']; rfl) limit
    rw [history]
    exact goes replay'' _ rest before.open' limit before longer
  refine ⟨shares, comes replay' [] rfl shares.childLimit (List.append_nil _).symm, fun replay'' rest longer open'' limit => ?_, ?_,
    fun _ listed => absurd listed List.not_mem_nil⟩
  · rw [List.map_nil, List.append_nil] at longer ⊢
    exact comes replay'' rest open'' limit longer
  · rw [commands, reached.commands, List.append_nil]
    simp only [List.map_append, List.map_cons, List.map_nil]

end Reaching

/-- What the handler does from a call on is what the run in memory does. -/
theorem ChildCall.runInMemory {workflowType : String} {input : JsValue} {childOptions : ChildOptions}
    {refused : JsValue → SequentialHandler} {more : String → Except JsValue JsValue → SequentialHandler}
    (child : ChildCall workflowType input childOptions script refused more) :
    script.runInMemory options memory =
      match InMemory.startChild options workflowType input childOptions memory with
      | (state, .error thrown) => (refused thrown).runInMemory options state
      | (state, .ok (childId, outcome)) => (more childId outcome).runInMemory options state := by
  cases child with
  | handle refused next =>
    rw [SequentialHandler.runInMemory]
    obtain ⟨state, answer⟩ := InMemory.startChild options workflowType input childOptions memory
    cases answer <;> rfl
  | result next =>
    rw [SequentialHandler.runInMemory]
    obtain ⟨state, answer⟩ := InMemory.startChild options workflowType input childOptions memory
    cases answer <;> rfl

/-- The outcome and the commands of a run whose handler has ended. -/
def Settled.decision (fresh : List WorkflowCommand) : Settled → DecisionOutcome × List WorkflowCommand
  | .completed result => (.completed result, fresh ++ [.completeRun result])
  | .failed error => (.failed error, fresh ++ [.failRun (toRecordedError error)])

/-- A place at which every decision foretells the rest. -/
def Foretells (options : RunWorkflowOptions) (ends : WorkflowCommand → Option WorkflowEvent) (root : JsValue → SequentialHandler)
    (input : JsValue) (script : SequentialHandler) : Prop :=
  ∀ past replay fresh memory, Reached options ends root input past replay fresh memory script →
    Predictable (script.runInMemory options memory) →
      ∃ decision, Decides options ends root input past replay (script.runInMemory options memory) decision

theorem foretells_finish (completion : Except JsValue JsValue) : Foretells options ends root input (.finish completion) := by
  intro past replay fresh memory reached predictable
  obtain ⟨host, stands, final, settles, host'⟩ := reached.now.finishes
  obtain ⟨fuel, made⟩ := settles.decides reached.now.open'
  have intact : integrityFailure final.host.settled = none := by
    rw [host']
    cases completion with
    | ok result => rfl
    | error reason => exact if_neg (by rw [predictable.trusted reason rfl]; exact Bool.false_ne_true)
  have concluded : conclude replay final = (Settled.of completion).decision fresh := by
    rw [conclude, reached.now.open', host', ← stands.commands, stands.going]
    cases completion <;> rfl
  rw [stands.trusted rfl reached.known (by rw [host']) (by rw [host']) intact, concluded] at made
  refine ⟨_, ⟨fuel, made⟩, .inl ?_⟩
  have commands := reached.commands
  cases completion with
  | ok result =>
    refine ⟨nofun, rfl, ?_⟩
    change (past ++ (fresh ++ [_])).map WorkflowCommand.predicted = _
    rw [← List.append_assoc, List.map_append, ← commands]
    rfl
  | error reason =>
    refine ⟨nofun, rfl, ?_⟩
    change (past ++ (fresh ++ [_])).map WorkflowCommand.predicted = _
    rw [← List.append_assoc, List.map_append, ← commands]
    rfl

theorem foretells_continueAsNew (given : JsValue) (next : Except JsValue JsValue → SequentialHandler) :
    Foretells options ends root input (.continueAsNew given next) := by
  intro past replay fresh memory reached predictable
  obtain ⟨host, stands, final, settles, host'⟩ := reached.now.continues
  obtain ⟨fuel, made⟩ := settles.decides reached.now.open'
  have intact : integrityFailure final.host.settled = none := by
    rw [host', show integrityFailure host.settled = none from by rw [stands.settled]; rfl]
  have concluded : conclude replay final = (.continuedAsNew given, [.continueAsNew given]) := by
    rw [conclude, reached.now.open', host']
    rfl
  rw [stands.trusted rfl reached.known (by rw [host']) (by rw [host']) intact, concluded] at made
  refine ⟨_, ⟨fuel, made⟩, .inl ⟨nofun, rfl, [], fresh, rfl, ?_, reached.patches⟩⟩
  rw [List.append_nil]
  exact reached.commands.symm

theorem foretells_patched (patchId : String) (next : Except JsValue JsValue → SequentialHandler)
    (onward : ∀ outcome, Foretells options ends root input (next outcome)) : Foretells options ends root input (.patched patchId next) := by
  intro past replay fresh memory reached predictable
  by_cases known : patchId ∈ memory.recordedPatches
  · refine onward _ past replay fresh _ ?_ predictable
    refine { reached with
      now := reached.now.patch_known known
      later := fun next rest longer open' limit => (reached.later next rest longer open' limit).patch_known known
      commands := ?_ }
    rw [show InMemory.patched patchId memory = memory from if_pos known]
    exact reached.commands
  · refine onward _ past replay (fresh ++ [.recordPatch patchId replay.options.buildId]) _ ?_ predictable
    refine ⟨reached.shares, reached.now.patch_new known rfl, fun next rest longer open' limit => ?_, ?_, ?_⟩
    · rw [List.map_append, ← List.append_assoc] at longer ⊢
      rw [List.append_assoc] at longer
      exact (reached.later next _ longer (by rw [cancelRequested_append, open']; rfl) limit).patch_recorded known longer
    · rw [patched_first known, ← List.append_assoc, List.map_append, ← reached.commands]
      rfl
    · intro command listed
      rcases List.mem_append.mp listed with old | new
      · exact reached.patches command old
      · exact ⟨_, _, List.mem_singleton.mp new⟩

section Calls

variable (same : SameResults options ends)

include same

theorem foretells_step (stepType : String) (given : JsValue) (next : Except JsValue JsValue → SequentialHandler)
    (onward : ∀ outcome, Foretells options ends root input (next outcome)) :
    Foretells options ends root input (.step stepType given next) := by
  intro past replay fresh memory reached predictable
  obtain ⟨event, answer, ended⟩ := same.step (memory.stepSequence + 1) stepType given
  have stops : StopsAt replay _ _ _ _ (InMemory.step options stepType given memory).1 := reached.now.stops_step rfl
  refine stops.decides rfl reached.known reached.now.open' (reached.unanswered same) answer (foretold fun replay' history shares => ?_)
  have open' : cancelRequested
      [commandToEvent (.scheduleStep ("step-" ++ toString (memory.stepSequence + 1)) stepType given), event] = false := by
    rcases stepOutcome_event ended with ⟨result, rfl⟩ | ⟨error, exhausted, rfl⟩ <;> rfl
  refine onward _ _ replay' [] _ (reached.answered ?_ open' rfl replay' history shares) predictable
  intro replay'' base rest _ _ comes longer
  exact comes.step longer ended

theorem foretells_sleep (durationMs : JsNumber) (next : Except JsValue JsValue → SequentialHandler)
    (onward : ∀ outcome, Foretells options ends root input (next outcome)) :
    Foretells options ends root input (.sleep durationMs next) := by
  intro past replay fresh memory reached predictable
  cases valid : durationMs.sleepMs with
  | none =>
    have refused : InMemory.sleep options durationMs memory = (memory, .error (invalidSleepDurationError durationMs)) := by
      rw [InMemory.sleep, valid]
    rw [SequentialHandler.runInMemory, refused] at predictable ⊢
    refine onward _ past replay fresh memory ?_ predictable
    exact { reached with
      now := reached.now.sleep_refused valid
      later := fun next rest longer open' limit => (reached.later next rest longer open' limit).sleep_refused valid }
  | some duration =>
    cases dated : (options.clock memory.timerSequence).after duration with
    | none =>
      -- The run in memory notes the timer, and so it is not predictable.
      have noted := unrepresentable_grows options (next (InMemory.sleep options durationMs memory).2)
        (InMemory.sleep options durationMs memory).1
      have none' : (InMemory.sleep options durationMs memory).1.unrepresentableTimers ≠ [] := by
        rw [InMemory.sleep, valid]
        dsimp only
        rw [dated]
        exact List.append_ne_nil_of_right_ne_nil _ (List.cons_ne_nil _ _)
      exact absurd (List.prefix_nil.mp (predictable.dated ▸ noted)) none'
    | some fireAt =>
      have stops := reached.now.stops_sleep valid dated rfl reached.clock
      rw [sleep_dated valid dated] at stops
      refine stops.decides rfl reached.known reached.now.open' (reached.unanswered same) (same.timer _ _ _)
        (foretold fun replay' history shares => ?_)
      rw [SequentialHandler.runInMemory] at predictable ⊢
      have answer : (InMemory.sleep options durationMs memory).2 = .ok .undefined := by rw [sleep_dated valid dated]
      rw [answer] at predictable ⊢
      refine onward _ _ replay' [] _ (reached.answered ?_ rfl (by rw [sleep_dated valid dated]; rfl) replay' history shares) predictable
      intro replay'' base rest _ _ comes longer
      exact comes.sleep valid dated longer

theorem foretells_child {workflowType : String} {given : JsValue} {childOptions : ChildOptions}
    {refused : JsValue → SequentialHandler} {more : String → Except JsValue JsValue → SequentialHandler}
    (child : ChildCall workflowType given childOptions script refused more)
    (thrown : ∀ error, Foretells options ends root input (refused error))
    (onward : ∀ childId outcome, Foretells options ends root input (more childId outcome)) : Foretells options ends root input script := by
  intro past replay fresh memory reached predictable
  rw [child.runInMemory] at predictable ⊢
  by_cases beyond : options.childLimit < memory.childSequence + 1
  · have refusedCall : InMemory.startChild options workflowType given childOptions memory =
        ({ memory with childSequence := memory.childSequence + 1 }, .error (childLimitExceededError options.childLimit)) := if_pos beyond
    have now := reached.now.child_refused child beyond reached.shares.childLimit
    rw [refusedCall] at predictable now ⊢
    refine thrown _ past replay fresh _ ?_ predictable
    refine { reached with now := now, later := fun next rest longer open' limit => ?_ }
    have later := (reached.later next rest longer open' limit).child_refused child beyond limit
    rwa [refusedCall] at later
  · obtain ⟨event, answer, ended⟩ := same.child (memory.childSequence + 1) workflowType given
      (childOptions.parentClosePolicy.getD .cancel) childOptions.runTimeoutMs childOptions.executionTimeoutMs
    have stops := reached.now.stops_child child beyond reached.shares.childLimit rfl
    rw [startChild_room beyond] at predictable stops ⊢
    refine stops.decides rfl reached.known reached.now.open' (reached.unanswered same) answer (foretold fun replay' history shares => ?_)
    have open' : cancelRequested [commandToEvent (.startChild ("child-" ++ toString (memory.childSequence + 1)) workflowType given
        (childOptions.parentClosePolicy.getD .cancel) childOptions.runTimeoutMs childOptions.executionTimeoutMs), event] = false := by
      rcases childOutcome_event ended with ⟨result, rfl⟩ | ⟨error, rfl⟩ <;> rfl
    refine onward _ _ _ replay' [] _ (reached.answered ?_ open' rfl replay' history shares) predictable
    intro replay'' base rest _ limit comes longer
    have goes := comes.child child beyond limit longer ended
    rwa [startChild_room beyond] at goes

/-- Every place of a handler, by induction on it. -/
theorem foretells (script : SequentialHandler) : Foretells options ends root input script := by
  induction script with
  | finish completion => exact foretells_finish completion
  | step stepType given next ih => exact foretells_step same stepType given next ih
  | sleep durationMs next ih => exact foretells_sleep same durationMs next ih
  | startChild workflowType given childOptions refused next thrown ih =>
    exact foretells_child same (.handle refused next) thrown fun childId outcome => ih (.string childId) outcome
  | executeChild workflowType given childOptions next ih =>
    exact foretells_child same (.result next) (fun error => ih (.error error)) fun _ outcome => ih outcome
  | patched patchId next ih => exact foretells_patched patchId next ih
  | continueAsNew given next ih => exact foretells_continueAsNew given next

end Calls

/-- From the start of a run on. -/
theorem run_foretold (same : SameResults options ends) (root : JsValue → SequentialHandler) (input : JsValue)
    (predictable : Predictable ((root input).runInMemory options .empty)) (workflowType : String) :
    Foretold options ends root input [] [.runStarted workflowType input] ((root input).runInMemory options .empty) := by
  refine foretold fun replay history shares => foretells same (root input) [] replay [] .empty ?_ predictable
  have open' : cancelRequested replay.history = false := by rw [history]; rfl
  refine ⟨shares, ?_, fun next rest longer later limit => ?_, rfl, fun _ listed => absurd listed List.not_mem_nil⟩
  · rw [history]
    exact comes_initially open'
  · rw [List.map_nil, List.append_nil, history] at longer ⊢
    exact comes_initially (by rw [longer]; exact later)

/-- The runner predicts a run of a handler that awaits each call, for the same results and the same clock: the log can be
driven to the end of the run, and however it is, the outcome is the runner's and so are the commands, up to what only the
engine records. A run that continues as new has more commands than the runner, which returns the last one. -/
theorem runWorkflowInMemory_predicts (same : SameResults options ends) (root : JsValue → SequentialHandler) (input : JsValue)
    (predictable : Predictable ((root input).runInMemory options .empty)) (workflowType : String) : (∃ commands outcome,
      Drives (SequentialHandler.handler root) input ends options.Shares [.runStarted workflowType input] commands outcome) ∧
    ∀ commands outcome,
      Drives (SequentialHandler.handler root) input ends options.Shares [.runStarted workflowType input] commands outcome →
        (runWorkflowInMemory options root input).Predicts commands outcome := by
  obtain ⟨driven, all⟩ := run_foretold same root input predictable workflowType
  refine ⟨driven, fun commands outcome drives => ?_⟩
  have expected := all commands outcome drives
  rw [runWorkflowInMemory]
  generalize (root input).runInMemory options .empty = ended at expected
  obtain ⟨state, completion | given⟩ := ended
  · cases completion with
    | ok result => exact expected
    | error reason => exact expected
  · obtain ⟨same, earlier, dropped, commands', -⟩ := expected
    exact ⟨same, rfl, earlier, commands'⟩

/-- Steps that charge, and children that answer with nothing. -/
def shopOptions : RunWorkflowOptions :=
  ⟨fun _ => Instant.epoch, fun _ => some fun _ _ => .ok (.bool true), fun _ => some fun _ _ => .ok .null, none⟩

def shopEnds : WorkflowCommand → Option WorkflowEvent
  | .scheduleStep stepId _ _ => some (.stepCompleted stepId (.bool true))
  | .startTimer timerId _ _ => some (.timerFired timerId)
  | .startChild childId _ _ _ _ _ => some (.childCompleted childId .null)
  | _ => none

theorem shop_sameResults : SameResults shopOptions shopEnds where
  step _ _ _ := ⟨_, rfl, if_pos rfl⟩
  timer _ _ _ := rfl
  child _ _ _ _ _ _ := ⟨_, rfl, if_pos rfl⟩
  patch _ _ := rfl

/-- A handler that charges, waits a second and ships. -/
def shopScript (input : JsValue) : SequentialHandler :=
  .step "charge" input fun charged => .patched "express" fun _ => .sleep (.finite 1000) fun _ =>
    .executeChild "ship" .null ⟨none, some (.finite 5), none⟩ fun _ => .finish charged

/-- The commands of the handler in memory, before it ends. -/
def shopCommands : List WorkflowCommand :=
  [.scheduleStep "step-1" "charge" .null, .recordPatch "express" none,
    .startTimer "timer-1" ⟨1000, oneSecond_lower, oneSecond_upper⟩ (.finite 1000),
    .startChild "child-1" "ship" .null .cancel none none]

theorem shopScript_run : (shopScript .null).runInMemory shopOptions .empty =
    (⟨1, 1, 1, ["express"], shopCommands, []⟩, .settled (.ok (.bool true))) := by
  let waiting : InMemoryState := ⟨1, 0, 0, ["express"], [.scheduleStep "step-1" "charge" .null, .recordPatch "express" none], []⟩
  have valid : (JsNumber.finite 1000).sleepMs = some 1000 := by decide +kernel
  have dated : (shopOptions.clock waiting.timerSequence).after 1000 = some ⟨1000, by decide, by decide⟩ := by decide +kernel
  have slept : InMemory.sleep shopOptions (.finite 1000) waiting = _ := sleep_dated valid dated
  have begins : (shopScript .null).runInMemory shopOptions .empty =
      (SequentialHandler.sleep (.finite 1000) fun _ => .executeChild "ship" .null ⟨none, some (.finite 5), none⟩ fun _ =>
        .finish (.ok (.bool true))).runInMemory shopOptions waiting := rfl
  rw [begins, SequentialHandler.runInMemory, slept, (ChildCall.result _).runInMemory, startChild_room (by decide)]
  have timerId : "timer-" ++ toString (waiting.timerSequence + 1) = "timer-1" := by decide
  have childId : "child-" ++ toString (waiting.childSequence + 1) = "child-1" := by decide
  dsimp only
  rw [timerId, childId]
  rfl

theorem runWorkflowInMemory_predicts_shopScript : ∃ commands,
    Drives (SequentialHandler.handler shopScript) .null shopEnds shopOptions.Shares [.runStarted "shop" .null] commands
      (.completed (.bool true)) ∧ commands.map WorkflowCommand.predicted = shopCommands ++ [.completeRun (.bool true)] := by
  have predictable : Predictable ((shopScript .null).runInMemory shopOptions .empty) := by
    rw [shopScript_run]
    exact ⟨rfl, fun _ same => nomatch same⟩
  obtain ⟨⟨commands, outcome, drives⟩, predicts⟩ :=
    runWorkflowInMemory_predicts shop_sameResults shopScript .null predictable "shop"
  have predicted := predicts commands outcome drives
  rw [runWorkflowInMemory, shopScript_run] at predicted
  obtain ⟨rfl, same⟩ := predicted
  exact ⟨commands, drives, same⟩

/-- A handler that charges and continues as new. -/
def renewingScript (input : JsValue) : SequentialHandler :=
  .step "charge" input fun _ => .continueAsNew .null fun outcome => .finish outcome

/-- The runner leaves out the commands before a run continues as new. -/
theorem continueAsNew_leaves_out : ¬∀ (options : RunWorkflowOptions) (ends : WorkflowCommand → Option WorkflowEvent),
    SameResults options ends → ∀ (root : JsValue → SequentialHandler) (input : JsValue) (workflowType : String) commands outcome,
      Drives (SequentialHandler.handler root) input ends options.Shares [.runStarted workflowType input] commands outcome →
        (runWorkflowInMemory options root input).commands = commands ∧ (runWorkflowInMemory options root input).outcome = outcome := by
  intro every
  have ended : (renewingScript .null).runInMemory shopOptions .empty =
      (⟨1, 0, 0, [], [.scheduleStep "step-1" "charge" .null], []⟩, .continued .null) := rfl
  have predictable : Predictable ((renewingScript .null).runInMemory shopOptions .empty) := by
    rw [ended]
    exact ⟨rfl, fun _ same => nomatch same⟩
  obtain ⟨⟨commands, outcome, drives⟩, all⟩ := run_foretold shop_sameResults renewingScript .null predictable "shop"
  have same := (every shopOptions shopEnds shop_sameResults renewingScript .null "shop" commands outcome drives).1
  have expected := all commands outcome drives
  rw [runWorkflowInMemory, ended] at same
  rw [ended] at expected
  obtain ⟨-, earlier, dropped, whole, predicted, patches⟩ := expected
  -- The runner has one command only, and so the step would be one of the patches.
  have none' : earlier = [] := by
    have lengths := congrArg List.length (same.trans whole)
    rw [List.length_append] at lengths
    exact List.length_eq_zero_iff.mp (Nat.add_right_cancel (lengths.symm.trans (Nat.zero_add _).symm))
  subst none'
  cases dropped with
  | nil => cases predicted
  | cons command dropped =>
    obtain ⟨patchId, buildId, rfl⟩ := patches command List.mem_cons_self
    cases predicted

end Prediction

end DurableExecution.Workflow

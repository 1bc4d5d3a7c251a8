import DurableExecution.Workflow.LiveFeeding

/-
This file proves that every decision of a live session is the decision of a replay of the whole history.
-/

namespace DurableExecution.Workflow.Live

open EventLoop

section Delivering

variable {H : Type} {long : Replay} {options : DecisionLoopOptions} {history rest : List WorkflowEvent} {goal : Goal}
  {delivered : Nat} {first : LiveWorld H} {second : ReplayWorld H}

theorem settleAll_host (entries : List (PromiseId × Except JsValue JsValue)) (world : LiveWorld H) :
    (entries.foldl (fun world entry => world.settle .host entry.1 entry.2) world).host = world.host := by
  induction entries generalizing world with
  | nil => rfl
  | cons entry others ih => rw [List.foldl_cons, ih, World.settle_host]

theorem deliver_grows (event : WorkflowEvent) (world : LiveWorld H) : world.host.Grows (deliver event world).2.host := by
  rw [deliver_eq]
  split
  · unfold notify
    dsimp only
    rw [settleAll_host]
    cases event <;> exact ⟨id, id, rfl, rfl, List.prefix_rfl, List.prefix_rfl, List.prefix_rfl⟩
  · exact .refl _

/-- What every call keeps is kept while events are delivered. -/
theorem deliverAll_keeps {holds : LiveState H → Prop} (kept : ∀ before after, before.Grows after → holds before → holds after)
    (fuel : Nat) (slice : List WorkflowEvent) (world last : LiveWorld H)
    (ran : deliverAll options fuel slice world = some last) (before : holds world.host) : holds last.host := by
  induction slice generalizing world with
  | nil =>
    cases ran
    exact before
  | cons event others ih =>
    have grown := kept _ _ (deliver_grows event world) before
    unfold deliverAll at ran
    split at ran
    · next reached answer =>
        rw [answer] at grown
        obtain ⟨quiet, drained, others'⟩ := Option.bind_eq_some_iff.mp ran
        exact ih quiet others' ((live_keeps options kept).drain fuel _ _ drained grown)
    · next reached answer =>
        rw [answer] at grown
        exact ih reached ran grown

/-- An event that nobody waits for queues no microtask. -/
theorem deliver_sleepy (event : WorkflowEvent) (world : LiveWorld H) (nobody : (deliver event world).1 = false) :
    (deliver event world).2.jobs = world.jobs := by
  rw [deliver_eq] at nobody ⊢
  split at nobody
  · unfold notify at nobody ⊢
    dsimp only at nobody ⊢
    rw [Bool.not_eq_false'] at nobody
    rw [List.isEmpty_iff.mp nobody]
    rfl
  · rfl

/-- After the events have been delivered no microtask is left. -/
theorem deliverAll_quiet (fuel : Nat) (slice : List WorkflowEvent) (world last : LiveWorld H)
    (ran : deliverAll options fuel slice world = some last) (quiet : world.jobs = []) : last.jobs = [] := by
  induction slice generalizing world with
  | nil =>
    cases ran
    exact quiet
  | cons event others ih =>
    unfold deliverAll at ran
    split at ran
    · next reached answer =>
        obtain ⟨dry, drained, others'⟩ := Option.bind_eq_some_iff.mp ran
        exact ih dry others' (drain_jobs _ fuel _ _ drained)
    · next reached answer =>
        refine ih reached ran ?_
        have same := deliver_sleepy event world (by rw [answer])
        rw [answer] at same
        exact same.trans quiet

/-- The replay is fed as the events are delivered. -/
theorem deliverAll_follows (prolonged : Prolonged long options history goal rest) (fuel : Nat) (slice : List WorkflowEvent)
    (delivered : Nat) (inside : slice <+: long.history.drop delivered) (last : LiveWorld H)
    (lockstep : Lockstep (beside H long history goal delivered) first second) (ran : deliverAll options fuel slice first = some last) :
    last.host.Lost goal ∨ ∃ fed, (∀ final, Feeds long fed final → Feeds long second final) ∧
      Lockstep (beside H long history goal (delivered + slice.length)) last fed := by
  induction slice generalizing delivered first second with
  | nil =>
    cases ran
    exact .inr ⟨second, fun _ feeds => feeds, lockstep⟩
  | cons event others ih =>
    obtain ⟨behind, whole⟩ := inside
    have next : long.history[delivered]? = some event := by
      have head := congrArg (fun events => events[0]?) whole
      simpa [List.getElem?_drop] using head.symm
    have inside' : others <+: long.history.drop (delivered + 1) := by
      refine ⟨behind, ?_⟩
      rw [← List.tail_drop, ← whole]
      rfl
    obtain ⟨asleep, awake⟩ := deliver_follows prolonged next lockstep
    have grown := deliver_grows event first
    rw [show delivered + (event :: others).length = delivered + 1 + others.length by rw [List.length_cons]; omega]
    unfold deliverAll at ran
    split at ran
    · next reached answer =>
        rw [answer] at awake
        obtain ⟨earliest, released⟩ := awake rfl
        obtain ⟨quiet, drained, others'⟩ := Option.bind_eq_some_iff.mp ran
        rcases (live_simulates prolonged).drain fuel _ quiet _ released drained with lost | ⟨fed, drained', related⟩
        · exact .inl (deliverAll_keeps (fun _ _ grows lost => grows.lost lost) fuel others quiet last others' lost)
        · have resting : Lockstep (beside H long history goal (delivered + 1)) quiet fed := by
            obtain ⟨follows, upTo⟩ := related.host
            exact rehosted related _ _ ⟨follows, by omega⟩
          rcases ih (delivered + 1) inside' resting others' with lost | ⟨later, reaches, aligned⟩
          · exact .inl lost
          · exact .inr ⟨later, fun final feeds => .next _ _ _ delivered fuel earliest drained' (reaches final feeds), aligned⟩
    · next reached answer =>
        rw [answer] at asleep
        exact ih (delivered + 1) inside' (asleep rfl) ran

end Delivering

section Stages

variable {H : Type} {long : Replay} {options : DecisionLoopOptions} {history slice : List WorkflowEvent} {goal : Goal}
  {emitted : List WorkflowCommand}

/-- What was recorded stays recorded. -/
theorem Recorded.longer (recorded : Recorded emitted slice) (rest : List WorkflowEvent) : Recorded emitted (slice ++ rest) where
  commands position shape found := by
    obtain ⟨held, here, same⟩ := recorded.commands position shape found
    refine ⟨held, ?_, same⟩
    rw [recordedCommands_append, List.getElem?_append_left (List.getElem?_eq_some_iff.mp here).1]
    exact here
  times := by
    rw [recordedTimes_append]
    exact recorded.times.trans (List.prefix_append _ _)

/-- As many commands are recorded as were emitted. -/
theorem Recorded.enough (recorded : Recorded emitted slice) :
    (recordedCommands (emitted.map commandToEvent)).length ≤ (recordedCommands slice).length := by
  by_contra short
  have inside := Nat.lt_of_not_le short
  obtain ⟨held, here, _⟩ := recorded.commands (recordedCommands slice).length _ (List.getElem?_eq_getElem inside)
  exact absurd (List.getElem?_eq_some_iff.mp here).1 (Nat.lt_irrefl _)

/-- The new events become known all at once. -/
theorem index_all (slice : List WorkflowEvent) (state : LiveState H) :
    slice.foldl index state = { state with
      history := state.history ++ slice
      matcher := state.matcher.record (recordedCommands slice)
      recordedTimes := state.recordedTimes ++ recordedTimes slice } := by
  induction slice generalizing state with
  | nil => simp [recordedCommands, recordedTimes, CommandMatcher.record]
  | cons event others ih =>
    rw [List.foldl_cons, ih]
    have commands : recordedCommands (event :: others) = (recordedCommandOf event).toList ++ recordedCommands others := by
      rw [recordedCommands, List.filterMap_cons]
      cases recordedCommandOf event <;> rfl
    have times : recordedTimes (event :: others) = (recordedTime event).toList ++ recordedTimes others := by
      rw [recordedTimes, List.filterMap_cons]
      cases recordedTime event <;> rfl
    rw [commands, times]
    simp only [index, CommandMatcher.record, List.append_assoc, List.singleton_append]

/-- What a decision emitted is known before the next decision starts. -/
theorem Follows.goesOn {delivered : Nat} {live : LiveState H} {replay : ReplayState H}
    (follows : Follows long history (.earlier emitted) delivered live replay) (same : live.commands = emitted)
    (recorded : Recorded emitted slice)
    (trigger : ∀ reads, goal = .latest reads → live.clockReads = reads ∧ live.triggeredAt = long.options.triggeredAt) :
    Follows long (history ++ slice) goal delivered (slice.foldl index { live with commands := [] }) replay := by
  obtain ⟨none', unread, discovered, timed⟩ := follows.emits
  rw [same] at discovered timed
  have enough := recorded.enough
  have enoughTimes := recorded.times.length_le
  rw [discovered, List.length_drop] at enough
  rw [index_all]
  refine { follows with
    seen := congrArg (· ++ slice) follows.seen
    times := ?_
    indexed := ?_
    emits := ?_ }
  · change live.recordedTimes ++ recordedTimes slice = _
    rw [follows.times, recordedTimes_append]
  · change live.matcher.recorded ++ recordedCommands slice = _
    rw [follows.indexed, recordedCommands_append]
  · cases goal with
    | earlier next =>
      refine ⟨none', unread, ?_, ?_⟩
      · change [] = live.matcher.issued.drop (recordedCommands (history ++ slice)).length
        rw [recordedCommands_append, List.length_append, List.drop_eq_nil_of_le (by omega)]
      · change 0 = live.timeCalls - (recordedTimes (history ++ slice)).length
        rw [recordedTimes_append, List.length_append]
        omega
    | latest reads =>
      obtain ⟨clock, triggered⟩ := trigger reads rfl
      exact ⟨none', by rw [unread]; exact clock, triggered⟩

/-- A session that has seen nothing and a replay that has not begun. -/
theorem follows_initially (session : LiveState H)
    (fresh : session = { freshState H with triggeredAt := session.triggeredAt, started := true })
    (trigger : ∀ reads, goal = .latest reads → reads = 0 ∧ session.triggeredAt = long.options.triggeredAt) :
    Follows long slice goal 0 (slice.foldl index session) (initialReplayState H long.history) := by
  rw [index_all, fresh]
  refine
    { steps := rfl, timers := rfl, consumed := rfl, timeCalls := rfl, draws := rfl, settled := rfl, continuation := rfl,
      seen := rfl, times := rfl, indexed := rfl, recorded := rfl, issued := rfl, waiting := rfl,
      numbered := fun shape listed => absurd listed List.not_mem_nil,
      emits := ?_, unresolved := fun entry listed => absurd listed List.not_mem_nil, known := fun waiter => ?_ }
  · cases goal with
    | earlier emitted =>
      refine ⟨rfl, rfl, List.drop_nil.symm, ?_⟩
      change 0 = 0 - _
      omega
    | latest reads =>
      obtain ⟨rfl, triggered⟩ := trigger reads rfl
      exact ⟨rfl, rfl, triggered⟩
  · cases waiter <;> rfl

end Stages

section Advances

variable {H : Type} {long : Replay} {options : DecisionLoopOptions} {handler : WorkflowHandler H} {input : JsValue}
  {history slice rest : List WorkflowEvent} {goal : Goal} {fuel : Nat} {session next : LiveWorld H}

/-- A replay of the longer history has come to where a session stands. -/
structure Shadowed (long : Replay) (handler : WorkflowHandler H) (input : JsValue) (history : List WorkflowEvent) (goal : Goal)
    (session : LiveWorld H) : Prop where
  quiet : session.jobs = []
  started : session.host.started = true
  replayed : ∃ fed, (∀ final, Feeds long fed final → Nonempty (Replayed long handler input final)) ∧
    Lockstep (beside H long history goal history.length) session fed

/-- A session before its first advance. -/
def Unstarted (handler : WorkflowHandler H) (session : LiveWorld H) : Prop :=
  session = { createLiveSession handler with host := { freshState H with triggeredAt := session.host.triggeredAt } }

/-- The new events have been delivered: the session is lost, or a replay is where it is. -/
def Delivered (long : Replay) (handler : WorkflowHandler H) (input : JsValue) (history : List WorkflowEvent) (goal : Goal)
    (world : LiveWorld H) : Prop :=
  world.host.Lost goal ∨ Shadowed long handler input history goal world

theorem deliverAll_shadowed (prolonged : Prolonged long options (history ++ slice) goal rest)
    (world last : LiveWorld H) (quiet : world.jobs = []) (started : world.host.started = true) (fed : ReplayWorld H)
    (reaches : ∀ final, Feeds long fed final → Nonempty (Replayed long handler input final)) {delivered : Nat}
    (place : delivered = history.length) (lockstep : Lockstep (beside H long (history ++ slice) goal delivered) world fed)
    (ran : deliverAll options fuel slice world = some last) : Delivered long handler input (history ++ slice) goal last := by
  subst place
  have inside : slice <+: long.history.drop history.length := by
    rw [prolonged.whole, List.append_assoc, List.drop_left]
    exact List.prefix_append _ _
  rcases deliverAll_follows prolonged fuel slice _ inside last lockstep ran with lost | ⟨later, goesOn, related⟩
  · exact .inl lost
  · refine .inr ⟨deliverAll_quiet fuel slice world last ran quiet, ?_, later, ?_, ?_⟩
    · exact deliverAll_keeps (fun _ _ grows => grows.started) fuel slice world last ran started
    · exact fun final feeds => reaches final (goesOn final feeds)
    · rw [List.length_append]
      exact related

/-- A session that goes on: a replay of the longer history is fed the new events, too. -/
theorem goOn_shadowed (prolonged : Prolonged long options (session.host.history ++ slice) goal rest)
    (recorded : Recorded session.host.commands slice)
    (shadowed : Shadowed long handler input session.host.history (.earlier session.host.commands) session)
    (trigger : ∀ reads, goal = .latest reads → session.host.clockReads = reads ∧ session.host.triggeredAt = long.options.triggeredAt)
    {answer : Except JsValue LiveAdvance} (ran : goOn fuel options handler input slice session = some (next, answer)) :
    ∃ world, conclude options world = (next, answer) ∧ Delivered long handler input (session.host.history ++ slice) goal world := by
  obtain ⟨quiet, started, fed, reaches, lockstep⟩ := shadowed
  obtain ⟨follows, upTo⟩ := lockstep.host
  unfold goOn startHandler at ran
  dsimp only at ran
  have indexed : slice.foldl index { session.host with commands := [] } = _ := index_all slice _
  have begun : (alter (fun state => slice.foldl index { state with commands := [] }) session).host.started = true := by
    change (slice.foldl index { session.host with commands := [] }).started = true
    rw [indexed]
    exact started
  rw [if_pos begun] at ran
  dsimp only at ran
  rw [drain_quiet _ fuel _ (show (alter _ session).jobs = [] from quiet), Option.bind_some] at ran
  obtain ⟨world, delivered, concluded⟩ := Option.map_eq_some_iff.mp ran
  refine ⟨world, concluded, ?_⟩
  refine deliverAll_shadowed prolonged (alter (fun state => slice.foldl index { state with commands := [] }) session)
    world quiet begun fed reaches rfl ?_ delivered
  exact rehosted lockstep _ fed.host ⟨follows.goesOn rfl recorded trigger, upTo⟩

theorem Unstarted.fresh (unstarted : Unstarted handler session) :
    session.host = { freshState H with triggeredAt := session.host.triggeredAt } := congrArg World.host unstarted

theorem Unstarted.triggered (unstarted : Unstarted handler session) (trigger : Option Instant) :
    Unstarted handler (alter (fun state => { state with triggeredAt := trigger }) session) := by
  have state : (alter (fun state => { state with triggeredAt := trigger }) session).host =
      { freshState H with triggeredAt := trigger } := by
    change { session.host with triggeredAt := trigger } = _
    rw [unstarted.fresh]
  unfold Unstarted
  rw [state]
  have heap : session.heap = handler.heap := congrArg World.heap unstarted
  have jobs : session.jobs = [] := congrArg World.jobs unstarted
  have empty : session.promises = [] := congrArg World.promises unstarted
  simp only [alter, heap, jobs, empty, createLiveSession]
  congr 1

/-- A session is where the replay begins when it calls the handler. -/
theorem Unstarted.begins (unstarted : Unstarted handler session)
    (trigger : ∀ reads, goal = .latest reads → reads = 0 ∧ session.host.triggeredAt = long.options.triggeredAt) :
    Lockstep (alongside H long slice goal 0)
      (alter (fun state => { state with started := true })
        (alter (fun state => slice.foldl index { state with commands := [] }) session)) (initialWorld handler long.history) := by
  have empty : session.promises = [] := congrArg World.promises unstarted
  have related : Follows long slice goal 0 (slice.foldl index { session.host with commands := [], started := true })
      (initialReplayState H long.history) := follows_initially _ (by rw [unstarted.fresh]; rfl) trigger
  rw [index_all] at related
  have state : (alter (fun state => { state with started := true })
      (alter (fun state => slice.foldl index { state with commands := [] }) session)).host =
        { slice.foldl index { session.host with commands := [] } with started := true } := rfl
  rw [index_all] at state
  refine ⟨congrArg World.heap unstarted, congrArg World.jobs unstarted, congrArg List.length empty, fun place one two found => ?_, ?_⟩
  · rw [show (alter _ (alter _ session)).promises = [] from empty] at found
    cases found
  · rw [state]
    exact ⟨related, rfl⟩

/-- What the first advance of a session leads to: the handler threw at once, or the replay follows. -/
theorem goOn_begins (prolonged : Prolonged long options slice goal rest) (unstarted : Unstarted handler session)
    (trigger : ∀ reads, goal = .latest reads → reads = 0 ∧ session.host.triggeredAt = long.options.triggeredAt)
    {answer : Except JsValue LiveAdvance} (ran : goOn fuel options handler input slice session = some (next, answer)) :
    (∃ world, conclude options world = (next, answer) ∧ Delivered long handler input slice goal world) ∨
      next.host.Lost goal ∨ ∃ thrown, answer = .error thrown ∧
        ∀ enough, runDecisionLoop enough long handler input = some (.error thrown) := by
  have begun : Lockstep (alongside H long slice goal 0)
      (alter (fun state => { state with started := true })
        (alter (fun state => slice.foldl index { state with commands := [] }) session)) (initialWorld handler long.history) :=
    unstarted.begins trigger
  have idle : (alter (fun state => slice.foldl index { state with commands := [] }) session).host.started = false := by
    have state : (alter (fun state => slice.foldl index { state with commands := [] }) session).host =
      slice.foldl index { session.host with commands := [] } := rfl
    rw [state, index_all, unstarted.fresh]
    rfl
  have marked : (alter (fun state => { state with started := true })
      (alter (fun state => slice.foldl index { state with commands := [] }) session)).host.started = true := rfl
  have running := (live_simulates prolonged).run (handler.body input) _ _ begun
  have kept := (live_keeps options fun _ _ grows => grows.started).run (handler.body input) _ marked
  have replayedStart : Workflow.startHandler long handler input =
    run (replayHost H long) (handler.body input) (initialWorld handler long.history) := rfl
  unfold goOn startHandler at ran
  dsimp only at ran
  rw [idle] at ran
  simp only [Bool.false_eq_true, ↓reduceIte] at ran
  rw [← replayedStart] at running
  generalize run (liveHost H options) (handler.body input) _ = called at running ran kept
  obtain ⟨world, completion⟩ := called
  generalize begins : Workflow.startHandler long handler input = answered at running
  obtain ⟨shadow, completion'⟩ := answered
  have throws (thrown : JsValue) (same : completion' = .error thrown) (enough : Nat) :
      runDecisionLoop enough long handler input = some (.error thrown) := by
    rw [runDecisionLoop, replayHistory, begins, same]
    rfl
  have refuses (other : JsValue) (same : completion' = .ok other) (none' : ∀ target, other ≠ .promise target) (enough : Nat) :
      runDecisionLoop enough long handler input = some (.error notAPromiseError) := by
    rw [runDecisionLoop, replayHistory, begins, same]
    cases other <;> first | rfl | exact absurd rfl (none' _)
  have handled (thrown : JsValue) (threw : some (world, Except.error thrown) = some (next, answer))
      (replayed : completion = completion' → ∀ enough, runDecisionLoop enough long handler input = some (.error thrown)) :
      next.host.Lost goal ∨ ∃ thrown, answer = .error thrown ∧
        ∀ enough, runDecisionLoop enough long handler input = some (.error thrown) := by
    cases threw
    rcases running with lost | ⟨_, same⟩
    · exact .inl lost
    · exact .inr ⟨thrown, rfl, replayed same⟩
  cases completion with
  | error thrown => exact .inr (handled thrown ran fun same => throws thrown same.symm)
  | ok value =>
    cases value with
    | promise target =>
      obtain ⟨last, ranDry, concluded⟩ := Option.map_eq_some_iff.mp ran
      obtain ⟨dry, drained, delivered⟩ := Option.bind_eq_some_iff.mp ranDry
      refine .inl ⟨last, concluded, ?_⟩
      have losing (lost : dry.host.Lost goal) : Delivered long handler input slice goal last :=
        .inl (deliverAll_keeps (fun _ _ grows lost => grows.lost lost) fuel slice dry last delivered lost)
      have waiting : (world.react target (.host .handlerSettled)).host.started = true := by
        rw [World.react_host]
        exact kept
      rcases running with lost | ⟨lockstep, same⟩
      · refine losing ((live_keeps options fun _ _ grows lost => grows.lost lost).drain fuel _ _ drained ?_)
        rw [World.react_host]
        exact lost
      · rcases (live_simulates prolonged).drain fuel _ dry _ (lockstep.react target (.host .handlerSettled)) drained with
          lost | ⟨fed, drained', related⟩
        · exact losing lost
        · have dryStarted := (live_keeps options fun _ _ grows => grows.started).drain fuel _ _ drained waiting
          have reaches (final : ReplayWorld H) (feeds : Feeds long fed final) : Nonempty (Replayed long handler input final) := by
            have answered : completion' = .ok (.promise target) := same.symm
            exact ⟨⟨shadow, target, begins.trans (by rw [answered]), fed, fuel, drained', feeds⟩⟩
          obtain ⟨follows, upTo⟩ := related.host
          have resting : Lockstep (beside H long ([] ++ slice) goal 0) dry fed :=
            rehosted related _ _ ⟨follows, by omega⟩
          exact deliverAll_shadowed prolonged dry last (drain_jobs _ fuel _ _ drained) dryStarted fed reaches rfl resting delivered
    | _ => exact .inr (handled _ ran fun same => refuses _ same.symm (by rintro _ ⟨⟩))

/-- The decision of a session is the one that the replay it follows comes to. -/
theorem conclude_agrees {reads : Nat} (prolonged : Prolonged long options history (.latest reads) rest)
    (threshold : long.options.historyWarningThreshold = options.historyWarningThreshold) {world : LiveWorld H}
    (shadowed : Shadowed long handler input history (.latest reads) world) {answer : Except JsValue LiveAdvance}
    (concluded : conclude options world = (next, answer)) (supported : world.host.unsupported = false) :
    ∃ enough result, runDecisionLoop enough long handler input = some result ∧ answer = result.map LiveAdvance.decided := by
  obtain ⟨_, _, fed, reaches, lockstep⟩ := shadowed
  obtain ⟨follows, _⟩ := lockstep.host
  obtain ⟨rfl, _⟩ := prolonged.goal
  obtain ⟨commands, _, _⟩ := follows.emits
  have whole : long.history = history := prolonged.whole.trans (List.append_nil _)
  have nothing : fed.host.deliveries = [] := by
    rw [follows.waiting]
    refine List.filterMap_eq_nil_iff.mpr fun entry listed => ?_
    have absent := follows.unresolved entry listed
    rw [whole, List.take_length] at absent
    rw [whole, absent]
    rfl
  obtain ⟨replayed⟩ := reaches fed (.done fed (by rw [nextDelivery, nothing]; rfl))
  obtain ⟨enough, decided⟩ := replayed.decides prolonged.supported.going
  refine ⟨enough, _, decided, ?_⟩
  have unasked : unconsultedPatches long fed = [] := by
    have none' : recordedPatchIds long.history = [] := by
      refine List.filterMap_eq_nil_iff.mpr fun event listed => ?_
      have known := prolonged.supported.events event listed
      cases event <;> simp_all [isSupportedEvent, recordedPatchId]
    rw [unconsultedPatches, none']
    rfl
  have matcher : fed.host.matcher = world.host.matcher := by
    have recorded : fed.host.matcher.recorded = world.host.matcher.recorded := by
      rw [follows.recorded, follows.indexed, whole]
    have issued := follows.issued
    cases one : fed.host.matcher
    cases two : world.host.matcher
    simp_all
  have warning : historyWarning long = historyWarning ⟨world.host.history, options⟩ := by
    unfold historyWarning
    rw [threshold, follows.seen, whole]
  unfold conclude at concluded
  rw [supported] at concluded
  simp only [Bool.false_eq_true, ↓reduceIte] at concluded
  unfold decideFrom
  rw [unasked, show throwOnVersionMismatch long [] = none from rfl]
  dsimp only
  rw [follows.settled, matcher, warning]
  cases integrity : integrityFailure world.host.settled with
  | some error =>
    rw [integrity] at concluded
    cases concluded
    rfl
  | none =>
    rw [integrity] at concluded
    dsimp only at concluded ⊢
    cases issued : world.host.matcher.assertAllIssued with
    | some unissued =>
      rw [issued] at concluded
      cases concluded
      rfl
    | none =>
      rw [issued] at concluded
      cases concluded
      unfold Workflow.conclude buildDecision
      rw [prolonged.supported.going, follows.continuation, follows.settled, commands]
      cases world.host.settled with
      | none => rfl
      | some outcome => cases outcome <;> rfl

theorem conclude_grows (options : DecisionLoopOptions) (world : LiveWorld H) : world.host.Grows (conclude options world).1.host := by
  unfold conclude buildDecision
  dsimp only
  split
  · exact .refl _
  · split
    · exact ⟨id, id, rfl, rfl, List.prefix_rfl, List.prefix_rfl, List.prefix_rfl⟩
    · split
      · exact ⟨id, id, rfl, rfl, List.prefix_rfl, List.prefix_rfl, List.prefix_rfl⟩
      · cases world.host.settled with
        | none => exact ⟨id, id, rfl, rfl, List.prefix_rfl, List.prefix_rfl, List.prefix_rfl⟩
        | some outcome =>
          cases outcome <;> exact ⟨id, id, rfl, rfl, List.prefix_rfl, List.prefix_append _ _, List.prefix_rfl⟩

/-- What an advance leaves of the session that has indexed the new events. -/
theorem goOn_grows {answer : Except JsValue LiveAdvance} (ran : goOn fuel options handler input slice session = some (next, answer)) :
    (slice.foldl index { session.host with commands := [] }).Grows next.host := by
  have kept (before after : LiveState H) (grows : before.Grows after)
      (early : (slice.foldl index { session.host with commands := [] }).Grows before) :
      (slice.foldl index { session.host with commands := [] }).Grows after := early.trans grows
  have starting : (slice.foldl index { session.host with commands := [] }).Grows
      (startHandler options handler input
        (alter (fun state => slice.foldl index { state with commands := [] }) session)).1.host := by
    unfold startHandler
    split
    · exact .refl _
    · have marked : (slice.foldl index { session.host with commands := [] }).Grows (alter (fun state => { state with started := true })
          (alter (fun state => slice.foldl index { state with commands := [] }) session)).host :=
        ⟨id, fun _ => rfl, rfl, rfl, List.prefix_rfl, List.prefix_rfl, List.prefix_rfl⟩
      have ran := (live_keeps options kept).run (handler.body input) _ marked
      split
      · next world thrown called =>
          rw [called] at ran
          exact ran
      · next world result called =>
          rw [called] at ran
          rw [World.react_host]
          exact ran
      · next world value _ called =>
          rw [called] at ran
          exact ran
  unfold goOn at ran
  dsimp only at ran
  split at ran
  · next world thrown called =>
      rw [called] at starting
      cases ran
      exact starting
  · next world called =>
      rw [called] at starting
      obtain ⟨last, ranDry, concluded⟩ := Option.map_eq_some_iff.mp ran
      obtain ⟨dry, drained, delivered⟩ := Option.bind_eq_some_iff.mp ranDry
      have ends := deliverAll_keeps kept fuel slice dry last delivered
        ((live_keeps options kept).drain fuel _ _ drained starting)
      have final := ends.trans (conclude_grows options last)
      rw [concluded] at final
      exact final

end Advances

section Runs

variable {H : Type} {options : DecisionLoopOptions} {handler : WorkflowHandler H} {input : JsValue}
  {session next : LiveWorld H} {fuel : Nat} {full : List WorkflowEvent} {trigger : Option Instant}

/-- A history goes on after what a session has seen, with the commands that it emitted. -/
def Continuing (session : LiveState H) (full : List WorkflowEvent) : Prop :=
  ∃ slice, full = session.history ++ slice ∧ Recorded session.emitted slice

/-- A session as it is kept between its decisions: every advance, whatever the clock showed, went on from what the session had
seen and suspended the run, the code met no mismatch, and it set no timer that no date represents. -/
inductive LiveRun (options : DecisionLoopOptions) (handler : WorkflowHandler H) (input : JsValue) : LiveWorld H → Prop where
  | created : LiveRun options handler input (createLiveSession handler)
  | advanced (session next : LiveWorld H) (fuel : Nat) (clock : Nat → Instant) (full : List WorkflowEvent) (trigger : Option Instant)
      (decision : Decision) (earlier : LiveRun options handler input session) (continuing : Continuing session.host full)
      (made : advance fuel { options with clock } handler input full trigger session = some (next, .ok (.decided decision)))
      (suspended : decision.outcome = .suspended) (matched : next.host.matcher.Matched)
      (representable : next.host.unrepresentableTimers = []) : LiveRun options handler input next

/-- An advance that decides or throws has passed its checks. -/
theorem advance_goesOn {answer : Except JsValue LiveAdvance}
    (made : advance fuel options handler input full trigger session = some (next, answer))
    (accepted : answer ≠ .ok .diverged) (served : answer ≠ .ok .unsupported) :
    goOn fuel options handler input (full.drop session.host.history.length)
        (alter (fun state => { state with triggeredAt := trigger }) session) = some (next, answer) ∧
      ∀ event ∈ full.drop session.host.history.length, isSupportedEvent event = true := by
  unfold advance at made
  dsimp only at made
  split at made
  · cases made
    exact absurd rfl accepted
  · split at made
    · cases made
      exact absurd rfl accepted
    · split at made
      · cases made
        exact absurd rfl served
      · next known =>
          split at made
          · cases made
            exact absurd rfl accepted
          · rw [Bool.not_eq_true', Bool.not_eq_false] at known
            exact ⟨made, List.all_eq_true.mp known⟩

/-- A session that suspended its run keeps its commands to check them later. -/
theorem conclude_suspended {world : LiveWorld H} {decision : Decision}
    (concluded : conclude options world = (next, .ok (.decided decision))) (suspended : decision.outcome = .suspended) :
    next = alter (fun state => { state with emitted := state.commands }) world ∧ world.host.unsupported = false := by
  unfold conclude at concluded
  dsimp only at concluded
  split at concluded
  · cases concluded
  · next supported =>
      split at concluded
      · cases concluded
      · split at concluded
        · cases concluded
        · refine ⟨?_, by simpa using supported⟩
          unfold buildDecision at concluded
          dsimp only at concluded
          split at concluded
          · cases concluded
            rfl
          all_goals
            cases concluded
            cases suspended

theorem LiveRun.events (run : LiveRun options handler input session) : ∀ event ∈ session.host.history, isSupportedEvent event = true := by
  induction run with
  | created => exact fun event listed => absurd listed List.not_mem_nil
  | advanced session next fuel clock full trigger decision earlier continuing made suspended matched representable ih =>
    obtain ⟨ran, known⟩ := advance_goesOn made (by rintro ⟨⟩) (by rintro ⟨⟩)
    have seen := (goOn_grows ran).seen
    rw [index_all] at seen
    rw [seen]
    intro event listed
    rcases List.mem_append.mp listed with old | new
    · exact ih event old
    · exact known event new

/-- What the clock showed before does not matter. -/
theorem LiveRun.reclocked (run : LiveRun options handler input session) (clock : Nat → Instant) :
    LiveRun { options with clock } handler input session := by
  induction run with
  | created => exact .created
  | advanced session next fuel earlierClock full trigger decision earlier continuing made suspended matched representable ih =>
    exact .advanced session next fuel earlierClock full trigger decision ih continuing made suspended matched representable

/-- The time of the trigger is not compared before the decision. -/
theorem Shadowed.triggered {long : Replay} {history : List WorkflowEvent} {emitted : List WorkflowCommand}
    (shadowed : Shadowed long handler input history (.earlier emitted) session) (trigger : Option Instant) :
    Shadowed long handler input history (.earlier emitted) (alter (fun state => { state with triggeredAt := trigger }) session) := by
  obtain ⟨quiet, started, fed, reaches, lockstep⟩ := shadowed
  obtain ⟨follows, upTo⟩ := lockstep.host
  have triggered : Follows long history (.earlier emitted) history.length { session.host with triggeredAt := trigger } fed.host :=
    { follows with emits := follows.emits }
  exact ⟨quiet, started, fed, reaches, rehosted lockstep _ fed.host ⟨triggered, upTo⟩⟩

/-- One advance of a session that a replay follows. -/
theorem goOn_delivers {long : Replay} {slice rest : List WorkflowEvent} {goal : Goal}
    (prolonged : Prolonged long options (session.host.history ++ slice) goal rest)
    (recorded : Recorded session.host.commands slice)
    (kept : Unstarted handler session ∨ Shadowed long handler input session.host.history (.earlier session.host.commands) session)
    (clock : ∀ reads, goal = .latest reads → session.host.clockReads = reads ∧ trigger = long.options.triggeredAt)
    {answer : Except JsValue LiveAdvance}
    (ran : goOn fuel options handler input slice (alter (fun state => { state with triggeredAt := trigger }) session) =
      some (next, answer)) :
    (∃ world, conclude options world = (next, answer) ∧
        Delivered long handler input (session.host.history ++ slice) goal world) ∨
      next.host.Lost goal ∨ ∃ thrown, answer = .error thrown ∧
        ∀ enough, runDecisionLoop enough long handler input = some (.error thrown) := by
  rcases kept with unstarted | shadowed
  · have none' : session.host.history = [] := congrArg LiveState.history unstarted.fresh
    have unread : session.host.clockReads = 0 := congrArg LiveState.clockReads unstarted.fresh
    rw [none', List.nil_append] at prolonged ⊢
    refine goOn_begins prolonged (unstarted.triggered trigger) (fun reads latest => ?_) ran
    obtain ⟨same, sameTrigger⟩ := clock reads latest
    exact ⟨same.symm.trans unread, sameTrigger⟩
  · have shadowedThen : Shadowed long handler input (alter (fun state => { state with triggeredAt := trigger }) session).host.history
        (.earlier (alter (fun state => { state with triggeredAt := trigger }) session).host.commands)
        (alter (fun state => { state with triggeredAt := trigger }) session) := shadowed.triggered trigger
    have prolongedThen : Prolonged long options
        ((alter (fun state => { state with triggeredAt := trigger }) session).host.history ++ slice) goal rest := prolonged
    refine .inl (goOn_shadowed prolongedThen ?_ shadowedThen ?_ ran)
    · exact recorded
    · exact clock

/-- An advance that decided has run dry. -/
theorem goOn_concluded {slice : List WorkflowEvent} {decision : Decision}
    (ran : goOn fuel options handler input slice session = some (next, .ok (.decided decision))) :
    ∃ world, conclude options world = (next, .ok (.decided decision)) := by
  unfold goOn at ran
  dsimp only at ran
  split at ran
  · cases ran
  · obtain ⟨world, _, concluded⟩ := Option.map_eq_some_iff.mp ran
    exact ⟨world, concluded⟩

/-- A replay of any longer history that records what the session emitted follows the session. -/
theorem LiveRun.shadowed (run : LiveRun options handler input session) (long : Replay) {rest : List WorkflowEvent}
    (whole : long.history = session.host.history ++ rest) (recorded : Recorded session.host.emitted rest)
    (supported : Supported long.history) (random : long.options.random = options.random) :
    session.host.emitted = session.host.commands ∧ (Unstarted handler session ∨
      Shadowed long handler input session.host.history (.earlier session.host.commands) session) := by
  induction run generalizing rest with
  | created => exact ⟨rfl, .inl rfl⟩
  | advanced session next fuel clock full trigger decision earlier continuing made suspended matched representable ih =>
    obtain ⟨ran, known⟩ := advance_goesOn made (by rintro ⟨⟩) (by rintro ⟨⟩)
    obtain ⟨slice, rfl, emitted⟩ := continuing
    rw [List.drop_left] at ran
    have seen : next.host.history = session.host.history ++ slice := by
      have seen := (goOn_grows ran).seen
      rw [index_all] at seen
      exact seen
    rw [seen, List.append_assoc] at whole
    obtain ⟨same, kept⟩ := ih whole (emitted.longer rest)
    have own : next.host.emitted = next.host.commands := by
      obtain ⟨world, concluded⟩ := goOn_concluded ran
      rw [(conclude_suspended concluded suspended).1]
      rfl
    refine ⟨own, .inr ?_⟩
    have prolonged : Prolonged long { options with clock } (session.host.history ++ slice) (.earlier next.host.commands) rest :=
      ⟨whole.trans (List.append_assoc _ _ _).symm, supported, random, own ▸ recorded⟩
    obtain ⟨last, lastConcluded⟩ := goOn_concluded ran
    obtain ⟨reached, supportedStill⟩ := conclude_suspended lastConcluded suspended
    have safe : ¬ next.host.Lost (.earlier next.host.commands) := by
      rintro (unsupported | mismatched | strayed | unrepresented)
      · rw [reached] at unsupported
        exact absurd (supportedStill.symm.trans unsupported) (by decide)
      · exact mismatched matched
      · exact strayed List.prefix_rfl
      · exact unrepresented representable
    rw [seen]
    rcases goOn_delivers prolonged (same ▸ emitted) kept (by rintro _ ⟨⟩) ran with
      ⟨world, concluded, lost | ⟨quiet, started, fed, reaches, lockstep⟩⟩ | lost | ⟨thrown, threw, _⟩
    · refine absurd ?_ safe
      rw [(conclude_suspended concluded suspended).1] at lost ⊢
      exact lost
    · obtain ⟨follows, upTo⟩ := lockstep.host
      have stands := (conclude_suspended concluded suspended).1
      have host : Follows long (session.host.history ++ slice) (.earlier next.host.commands)
          (session.host.history ++ slice).length next.host fed.host := by
        rw [stands] at follows ⊢
        exact { follows with emits := follows.emits }
      have stays : Lockstep (beside H long (session.host.history ++ slice) (.earlier next.host.commands)
          (session.host.history ++ slice).length) { world with host := next.host } { fed with host := fed.host } :=
        rehosted lockstep _ _ ⟨host, upTo⟩
      have whole' : next = { world with host := next.host } := by
        rw [stands]
        rfl
      refine ⟨?_, ?_, fed, reaches, ?_⟩
      · rw [whole']
        exact quiet
      · rw [stands]
        exact started
      · rw [whole']
        exact stays
    · exact absurd lost safe
    · cases threw

/-- The replay of the whole history as the decision loop makes it when a session that read its clock so often advances. -/
def replayOf (options : DecisionLoopOptions) (full : List WorkflowEvent) (trigger : Option Instant) (session : LiveWorld H) : Replay where
  history := full
  options := { options with clock := fun count => options.clock (session.host.clockReads + count), triggeredAt := trigger }

/-- An advance that passed its checks comes to the decision of the replay, or throws what the replay throws. -/
theorem advance_agrees (run : LiveRun options handler input session) (continuing : Continuing session.host full)
    (orderly : Orderly full) {answer : Except JsValue LiveAdvance}
    (made : advance fuel options handler input full trigger session = some (next, answer))
    (accepted : answer ≠ .ok .diverged) (served : answer ≠ .ok .unsupported)
    (supported : next.host.unsupported = false) (matched : next.host.matcher.Matched) :
    ∃ enough result, runDecisionLoop enough (replayOf options full trigger session) handler input = some result ∧
      answer = result.map LiveAdvance.decided := by
  obtain ⟨ran, known⟩ := advance_goesOn made accepted served
  obtain ⟨slice, rfl, recorded⟩ := continuing
  rw [List.drop_left] at ran known
  have events : ∀ event ∈ session.host.history ++ slice, isSupportedEvent event = true := by
    intro event listed
    exact (List.mem_append.mp listed).elim (run.events event) (known event)
  have whole : Supported (replayOf options (session.host.history ++ slice) trigger session).history := ⟨orderly, events⟩
  obtain ⟨same, kept⟩ := run.shadowed _ rfl recorded whole rfl
  have prolonged : Prolonged (replayOf options (session.host.history ++ slice) trigger session) options
      (session.host.history ++ slice) (.latest session.host.clockReads) [] :=
    ⟨(List.append_nil _).symm, whole, rfl, rfl, fun _ => rfl⟩
  have safe : ¬ next.host.Lost (.latest session.host.clockReads) := by
    rintro (unsupported | mismatched | impossible)
    · exact absurd (supported.symm.trans unsupported) (by decide)
    · exact mismatched matched
    · exact impossible.elim
  have clock : ∀ reads, Goal.latest session.host.clockReads = .latest reads → session.host.clockReads = reads ∧
      trigger = (replayOf options (session.host.history ++ slice) trigger session).options.triggeredAt := by
    rintro _ ⟨⟩
    exact ⟨rfl, rfl⟩
  rcases goOn_delivers prolonged (same ▸ recorded) kept clock ran with
    ⟨world, concluded, lost | shadowed⟩ | lost | ⟨thrown, rfl, throws⟩
  · have grown := conclude_grows options world
    rw [concluded] at grown
    exact absurd (grown.lost lost) safe
  · have grown := conclude_grows options world
    rw [concluded] at grown
    refine conclude_agrees prolonged rfl shadowed concluded ?_
    cases flagged : world.host.unsupported with
    | false => rfl
    | true => exact absurd (supported.symm.trans (grown.unsupported flagged)) (by decide)
  · exact absurd lost safe
  · exact ⟨0, .error thrown, throws 0, rfl⟩

/-- An advance that was trusted left nothing unsupported. -/
theorem advance_supported {decision : Decision}
    (made : advance fuel options handler input full trigger session = some (next, .ok (.decided decision))) :
    next.host.unsupported = false := by
  obtain ⟨ran, _⟩ := advance_goesOn made (by rintro ⟨⟩) (by rintro ⟨⟩)
  obtain ⟨world, concluded⟩ := goOn_concluded ran
  unfold conclude at concluded
  dsimp only at concluded
  split at concluded
  · cases concluded
  · next supported =>
      split at concluded
      · cases concluded
      · split at concluded
        · cases concluded
        · cases concluded
          change (buildDecision options world.host).2.unsupported = false
          unfold buildDecision
          cases world.host.settled with
          | none => simpa using supported
          | some outcome => cases outcome <;> simpa using supported

/-- Feeding a session only what is new decides as the replay of the whole history does: a decision of the
session is the decision of the replay, and a session that throws where it met nothing unsupported throws what the replay throws. -/
theorem liveSession_decides (run : LiveRun options handler input session) (continuing : Continuing session.host full)
    (orderly : Orderly full) {answer : Except JsValue LiveAdvance}
    (made : advance fuel options handler input full trigger session = some (next, answer)) (matched : next.host.matcher.Matched) :
    (∀ decision, answer = .ok (.decided decision) →
      ∃ enough, runDecisionLoop enough (replayOf options full trigger session) handler input = some (.ok decision)) ∧
    (∀ thrown, answer = .error thrown → next.host.unsupported = false →
      ∃ enough, runDecisionLoop enough (replayOf options full trigger session) handler input = some (.error thrown)) := by
  refine ⟨?_, ?_⟩
  · rintro decision rfl
    obtain ⟨enough, result, decided, same⟩ :=
      advance_agrees run continuing orderly made (by rintro ⟨⟩) (by rintro ⟨⟩) (advance_supported made) matched
    cases result with
    | error thrown => cases same
    | ok other =>
      cases same
      exact ⟨enough, decided⟩
  · rintro thrown rfl supported
    obtain ⟨enough, result, decided, same⟩ :=
      advance_agrees run continuing orderly made (by rintro ⟨⟩) (by rintro ⟨⟩) supported matched
    cases result with
    | error other =>
      cases same
      exact ⟨enough, decided⟩
    | ok decision => cases same

end Runs

section Examples

def sessionOptions : DecisionLoopOptions where
  clock _ := .epoch
  random := ⟨fun _ => .finite 0, fun _ => ""⟩
  triggeredAt := none
  maxChildren := none
  historyWarningThreshold := none
  buildId := none

/-- `async (ctx) => { await ctx.step("charge"); }`. -/
def charging : WorkflowHandler Unit where
  heap := ()
  body _ := .promise fun result =>
    let suspended : WorkflowCode Unit := .finish (.ok (.promise result))
    awaitCall ⟨.workflow, .step "charge" .undefined⟩ suspended fun outcome => .settle result outcome suspended

def chargeStarted : List WorkflowEvent := [.runStarted "charge" .undefined]

def chargeDone : List WorkflowEvent :=
  chargeStarted ++ [.stepScheduled "step-1" "charge" .undefined, .stepCompleted "step-1" (.string "paid")]

theorem unemitted_recorded (history : List WorkflowEvent) : Recorded [] history where
  commands position shape found := by cases found
  times := List.nil_prefix

theorem charge_recorded : Recorded [.scheduleStep "step-1" "charge" .undefined] (chargeDone.drop 1) where
  commands position shape found := by
    cases position with
    | zero =>
      cases found
      exact ⟨_, rfl, by decide⟩
    | succ later => cases found
  times := List.nil_prefix

theorem chargeDone_orderly : Orderly chargeDone where
  justified event listed := by
    simp only [chargeDone, chargeStarted, List.cons_append, List.nil_append, List.mem_cons, List.not_mem_nil, or_false] at listed
    rcases listed with rfl | rfl | rfl
    · trivial
    · trivial
    · exact ⟨"charge", .undefined, .head _⟩
  once stepId stepType := by
    simp only [chargeDone, chargeStarted, List.cons_append, List.nil_append, List.filterMap_cons, stepOutcome]
    split <;> simp

theorem unrecorded_matched {matcher : CommandMatcher} (recorded : matcher.recorded = []) : matcher.Matched := by
  intro position held issued expected
  rw [recorded] at expected
  cases expected

theorem charge_matched {matcher : CommandMatcher} (recorded : matcher.recorded = [.step "step-1" "charge" .undefined])
    (issued : matcher.issued = [.step "step-1" "charge" .undefined]) : matcher.Matched := by
  intro position held other expected found
  rw [recorded] at expected
  rw [issued] at found
  cases position with
  | zero =>
    cases expected
    cases found
    decide
  | succ later => cases expected

/-- A session that waits for the step completes its run when it is fed the result, as the replay does. -/
theorem liveSession_charges : ∃ session next : LiveWorld Unit, LiveRun sessionOptions charging .undefined session ∧
    advance 5 sessionOptions charging .undefined chargeDone none session =
      some (next, .ok (.decided ⟨.completed (.string "paid"), [.completeRun (.string "paid")], none⟩)) ∧
    ∃ enough, runDecisionLoop enough (replayOf sessionOptions chargeDone none session) charging .undefined =
      some (.ok ⟨.completed (.string "paid"), [.completeRun (.string "paid")], none⟩) := by
  obtain ⟨session, next, began, seen, emitted, recorded, timers, made, recordedThen, issuedThen⟩ : ∃ session next,
      advance 5 sessionOptions charging .undefined chargeStarted none (createLiveSession charging) =
        some (session, .ok (.decided ⟨.suspended, [.scheduleStep "step-1" "charge" .undefined], none⟩)) ∧
      session.host.history = chargeStarted ∧ session.host.emitted = [.scheduleStep "step-1" "charge" .undefined] ∧
      session.host.matcher.recorded = [] ∧ session.host.unrepresentableTimers = [] ∧
      advance 5 sessionOptions charging .undefined chargeDone none session =
        some (next, .ok (.decided ⟨.completed (.string "paid"), [.completeRun (.string "paid")], none⟩)) ∧
      next.host.matcher.recorded = [.step "step-1" "charge" .undefined] ∧
      next.host.matcher.issued = [.step "step-1" "charge" .undefined] :=
    ⟨_, _, rfl, rfl, rfl, rfl, rfl, rfl, rfl, rfl⟩
  have run : LiveRun sessionOptions charging .undefined session :=
    .advanced _ _ 5 sessionOptions.clock chargeStarted none _ .created ⟨chargeStarted, rfl, unemitted_recorded _⟩ began rfl
      (unrecorded_matched recorded) timers
  have continuing : Continuing session.host chargeDone := by
    refine ⟨chargeDone.drop 1, ?_, ?_⟩
    · rw [seen]
      rfl
    · rw [emitted]
      exact charge_recorded
  have decides := (liveSession_decides run continuing chargeDone_orderly made (charge_matched recordedThen issuedThen)).1
  exact ⟨session, next, run, made, decides _ rfl⟩

end Examples

end DurableExecution.Workflow.Live

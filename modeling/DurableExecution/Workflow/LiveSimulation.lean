import DurableExecution.Workflow.LiveLockstep
import DurableExecution.Workflow.CaughtUp

/-
This file proves that a replay of the whole history follows a live session through every call.
-/

namespace DurableExecution.Workflow.Live

open EventLoop

section Outcomes

variable {waiter : Waiter} {history : List WorkflowEvent} {place : Nat × Except JsValue JsValue}

/-- The outcome that is found is the one after `skip` others. -/
theorem nthOutcome_value (outcomeOf : WorkflowEvent → Option (Except JsValue JsValue)) (skip index : Nat) (history : List WorkflowEvent) :
    (nthOutcome outcomeOf skip index history).map Prod.snd = (history.filterMap outcomeOf)[skip]? := by
  induction history generalizing skip index with
  | nil => simp [nthOutcome]
  | cons event rest ih =>
    cases found : outcomeOf event with
    | none => simp [nthOutcome, found, ih]
    | some outcome => cases skip <;> simp [nthOutcome, found, ih]

theorem Waiter.value (waiter : Waiter) (history : List WorkflowEvent) :
    (waiter.placeIn history).map Prod.snd = (history.filterMap waiter.outcome)[waiter.skip]? :=
  nthOutcome_value _ _ _ _

/-- What a part of the history settles is settled there in the whole. -/
theorem Waiter.placeIn_taken {delivered : Nat} (found : waiter.placeIn (history.take delivered) = some place) :
    waiter.placeIn history = some place ∧ place.1 < delivered := by
  have whole := nthOutcome_append_some _ _ _ _ (history.drop delivered) place found
  rw [List.take_append_drop] at whole
  refine ⟨whole, ?_⟩
  have inside := nthOutcome_lt _ _ _ _ place found
  rw [List.length_take] at inside
  omega

/-- What a part of the history leaves open is settled behind it. -/
theorem Waiter.placeIn_later {delivered : Nat} (absent : waiter.placeIn (history.take delivered) = none)
    (found : waiter.placeIn history = some place) : delivered ≤ place.1 := by
  by_cases inside : delivered ≤ history.length
  · have split : history.take delivered ++ history.drop delivered = history := List.take_append_drop _ _
    have later := nthOutcome_append_none _ _ _ _ (history.drop delivered) place absent (split.symm ▸ found)
    rw [List.length_take] at later
    omega
  · rw [List.take_of_length_le (Nat.le_of_not_le inside), found] at absent
    cases absent

end Outcomes

section Agreement

variable {H : Type} {long : Replay} {options : DecisionLoopOptions} {history rest : List WorkflowEvent} {goal : Goal}
  {delivered : Nat} {first : LiveWorld H} {second : ReplayWorld H}

/-- Two promises of one owner and status are alike. -/
theorem alike (owner : Owner) (one two : WaitTag) (status : Status H (Operation H) JsValue (Resumption H)) :
    Promise.Alike (alongside H long history goal delivered) ⟨owner, one, status⟩ ⟨owner, two, status⟩ where
  owner := rfl
  held frozen := False.elim frozen
  tag := trivial
  frozen frozen := False.elim frozen
  moving _ := rfl

theorem alloc_agrees (lockstep : Lockstep (alongside H long history goal delivered) first second) (owner : Owner)
    (one two : WaitTag) (status : Status H (Operation H) JsValue (Resumption H)) :
    Agree (alongside H long history goal delivered) (returned (first.alloc ⟨owner, one, status⟩))
      (Workflow.returned (second.alloc ⟨owner, two, status⟩)) := by
  refine .inr ⟨lockstep.alloc _ _ (alike owner one two status), ?_⟩
  exact congrArg (fun target => Except.ok (JsValue.promise target)) lockstep.size

/-- What the replay makes of a wait. -/
def awaits (long : Replay) (waiter : Waiter) (world : ReplayWorld H) : ReplayWorld H × Except JsValue JsValue :=
  match waiter.placeIn long.history with
  | some place => completedAt place.1 place.2 world
  | none => Workflow.neverSettles world

theorem Follows.resolves {live : LiveState H} {replay : ReplayState H} (follows : Follows long history goal delivered live replay)
    (waiter : Waiter) : live.tryResolve waiter = (waiter.placeIn (long.history.take delivered)).map Prod.snd := by
  rw [follows.known, Waiter.value]

/-- A session registers a waiter where the replay queues a delivery or waits forever. -/
theorem Follows.await {live : LiveState H} {replay : ReplayState H} (follows : Follows long history goal delivered live replay)
    (waiter : Waiter) (target : PromiseId) (deliveries : List (Nat × PromiseId × Except JsValue JsValue))
    (open' : waiter.placeIn (long.history.take delivered) = none)
    (queued : deliveries = ((waiter.placeIn long.history).map fun place => (place.1, target, place.2)).toList) :
    Follows long history goal delivered { live with waiters := live.waiters ++ [(waiter, target)] }
      { replay with deliveries := replay.deliveries ++ deliveries } where
  steps := follows.steps
  timers := follows.timers
  consumed := follows.consumed
  timeCalls := follows.timeCalls
  draws := follows.draws
  settled := follows.settled
  continuation := follows.continuation
  seen := follows.seen
  times := follows.times
  indexed := follows.indexed
  recorded := follows.recorded
  issued := follows.issued
  numbered := follows.numbered
  emits := by
    have emits := follows.emits
    cases goal <;> exact emits
  waiting := by
    rw [List.filterMap_append, ← follows.waiting, queued]
    cases whole : waiter.placeIn long.history <;> simp [whole]
  unresolved := by
    intro entry listed
    rcases List.mem_append.mp listed with old | new
    · exact follows.unresolved entry old
    · rw [List.mem_singleton.mp new]
      exact open'
  known := follows.known

theorem pendingPromise_agrees (lockstep : Lockstep (alongside H long history goal delivered) first second) (waiter : Waiter) :
    Agree (alongside H long history goal delivered) (pendingPromise waiter first) (awaits long waiter second) := by
  obtain ⟨follows, fed⟩ := lockstep.host
  have resolves := follows.resolves waiter
  unfold pendingPromise awaits
  cases here : waiter.placeIn (long.history.take delivered) with
  | some place =>
    obtain ⟨whole, inside⟩ := Waiter.placeIn_taken here
    rw [here] at resolves
    rw [resolves, whole]
    dsimp only [Option.map_some]
    unfold completedAt
    dsimp only
    rw [if_pos (by omega)]
    exact alloc_agrees lockstep _ _ _ _
  | none =>
    rw [here] at resolves
    rw [resolves]
    dsimp only [Option.map_none]
    cases whole : waiter.placeIn long.history with
    | none =>
      refine .inr ⟨?_, congrArg (fun target => Except.ok (JsValue.promise target)) lockstep.size⟩
      have allocated := lockstep.alloc _ _ (alike .host default default (.pending []))
      have awaited := follows.await waiter first.promises.length [] here (by rw [whole]; rfl)
      rw [List.append_nil] at awaited
      exact allocated.withHost _ _ ⟨awaited, fed⟩
    | some place =>
      have later := Waiter.placeIn_later here whole
      unfold completedAt
      dsimp only
      rw [if_neg (by omega)]
      refine .inr ⟨?_, congrArg (fun target => Except.ok (JsValue.promise target)) lockstep.size⟩
      have allocated := lockstep.alloc _ _ (alike .host default ⟨some place.1, false⟩ (.pending []))
      refine allocated.withHost _ _ ⟨follows.await waiter first.promises.length _ here ?_, fed⟩
      rw [whole, show first.promises.length = second.promises.length from lockstep.size]
      rfl

/-- The replay's history holds the commands that the session has indexed, and those of the rest. -/
theorem Prolonged.commands (prolonged : Prolonged long options history goal rest) :
    recordedCommands long.history = recordedCommands history ++ recordedCommands rest := by
  rw [prolonged.whole, recordedCommands_append]

theorem Prolonged.times (prolonged : Prolonged long options history goal rest) :
    recordedTimes long.history = recordedTimes history ++ recordedTimes rest := by
  rw [prolonged.whole, recordedTimes_append]

/-- Both matchers count a call. -/
theorem Follows.count {live : LiveState H} {replay : ReplayState H} (follows : Follows long history goal delivered live replay)
    (shape : CommandShape) (numbered : Numbered live.stepSequence live.timerSequence shape) (commands : List WorkflowCommand)
    (reads : Nat) (matcher matcher' : CommandMatcher) (recorded : matcher.recorded = live.matcher.recorded)
    (recorded' : matcher'.recorded = replay.matcher.recorded) (issued : matcher.issued = live.matcher.issued ++ [shape])
    (issued' : matcher'.issued = replay.matcher.issued ++ [shape])
    (emits : Emits long history { live with matcher := matcher, commands := commands, clockReads := reads }
      { replay with matcher := matcher' } goal) :
    Follows long history goal delivered { live with matcher := matcher, commands := commands, clockReads := reads }
      { replay with matcher := matcher' } where
  steps := follows.steps
  timers := follows.timers
  consumed := follows.consumed
  timeCalls := follows.timeCalls
  draws := follows.draws
  settled := follows.settled
  continuation := follows.continuation
  seen := follows.seen
  times := follows.times
  indexed := recorded.trans follows.indexed
  recorded := recorded'.trans follows.recorded
  issued := by
    change matcher'.issued = matcher.issued
    rw [issued', issued, follows.issued]
  numbered := by
    change ∀ old ∈ matcher.issued, _
    rw [issued]
    intro old listed
    rcases List.mem_append.mp listed with early | new
    · exact follows.numbered old early
    · rw [List.mem_singleton.mp new]
      exact numbered
  emits := emits
  waiting := follows.waiting
  unresolved := follows.unresolved
  known := follows.known

/-- A call whose command neither history has yet: its id is new. -/
def Unheld (long : Replay) (shape : CommandShape) : Prop :=
  ∀ recorded ∈ recordedCommands long.history, (recorded.kind, recorded.id) ≠ (shape.kind, shape.id)

/-- How a session and a replay count a call: the session is lost, both find the command, the replay finds
what the session discovers, or both discover it. -/
inductive CountedAs (long : Replay) (history : List WorkflowEvent) (goal : Goal) (delivered : Nat) (shape : CommandShape)
    (first : LiveWorld H) (second : ReplayWorld H) : Prop where
  | lost (strayed : (issue shape first).1.host.Lost goal)
  | found (one : (issue shape first).2 = .ok true) (two : (Workflow.issue shape false second).2 = .ok true)
      (lockstep : Lockstep (alongside H long history goal delivered) (issue shape first).1
        (Workflow.issue shape false second).1)
  | foreseen (emitted : List WorkflowCommand) (earlier : goal = .earlier emitted)
      (one : (issue shape first).2 = .ok false)
      (leads : ∀ command reads, recordedCommandOf (commandToEvent command) = some shape →
        first.host.commands ++ [command] <+: emitted →
          (Workflow.issue shape false second).2 = .ok true ∧
            Lockstep (alongside H long history goal delivered)
              (alter (fun state => { state with commands := state.commands ++ [command], clockReads := reads })
                (issue shape first).1) (Workflow.issue shape false second).1)
  | discovered (reads : Nat) (latest : goal = .latest reads) (one : (issue shape first).2 = .ok false)
      (two : (Workflow.issue shape false second).2 = .ok false) (unheld : Unheld long shape)
      (lockstep : Lockstep (alongside H long history goal delivered) (issue shape first).1
        (Workflow.issue shape false second).1)

/-- Matching commands have one key, so that a command with a new id is in no history. -/
theorem unheld_of_matched {matcher : CommandMatcher} {shape : CommandShape} (matched : matcher.Matched)
    (covered : (recordedCommands long.history).length ≤ matcher.issued.length) (recorded : matcher.recorded = recordedCommands long.history)
    (fresh : ∀ old ∈ matcher.issued, (old.kind, old.id) ≠ (shape.kind, shape.id)) : Unheld long shape := by
  intro held listed same
  obtain ⟨position, inside, at'⟩ := List.getElem_of_mem listed
  have issued := List.getElem?_eq_getElem (Nat.lt_of_lt_of_le inside covered)
  have matching := matched position held _ (by rw [recorded, List.getElem?_eq_getElem inside, at']) issued
  exact fresh _ (List.getElem_mem _) ((sameCommand_key matching).symm.trans same)

theorem count_agrees (prolonged : Prolonged long options history goal rest)
    (lockstep : Lockstep (alongside H long history goal delivered) first second) (shape : CommandShape)
    (numbered : Numbered first.host.stepSequence first.host.timerSequence shape)
    (fresh : ∀ old ∈ first.host.matcher.issued, (old.kind, old.id) ≠ (shape.kind, shape.id)) :
    CountedAs long history goal delivered shape first second := by
  obtain ⟨follows, fed⟩ := lockstep.host
  have commands := prolonged.commands
  by_cases matched : (issue shape first).1.host.matcher.Matched
  swap
  · exact .lost (.inr (.inl matched))
  have issued : (first.host.matcher.issue shape false).1.issued = first.host.matcher.issued ++ [shape] :=
    CommandMatcher.issue_issued _ shape
  have issued' : (second.host.matcher.issue shape false).1.issued = second.host.matcher.issued ++ [shape] :=
    CommandMatcher.issue_issued _ shape
  have unchanged : (first.host.matcher.issue shape false).1.recorded = first.host.matcher.recorded :=
    CommandMatcher.issue_recorded _ shape false
  have unchanged' : (second.host.matcher.issue shape false).1.recorded = second.host.matcher.recorded :=
    CommandMatcher.issue_recorded _ shape false
  have counted := fun commands reads => follows.count shape numbered commands reads _ _ unchanged unchanged' issued issued'
  cases held : first.host.matcher.expected with
  | some expected =>
    have inside : first.host.matcher.issued.length < (recordedCommands history).length := by
      rw [← follows.indexed]
      exact (List.getElem?_eq_some_iff.mp held).1
    have same : sameCommand expected shape = true := by
      refine matched first.host.matcher.issued.length expected shape ?_ ?_
      · change (first.host.matcher.issue shape false).1.recorded[_]? = _
        rw [unchanged]
        exact held
      · change (first.host.matcher.issue shape false).1.issued[_]? = _
        rw [issued]
        simp
    have held' : second.host.matcher.expected = some expected := by
      rw [CommandMatcher.expected, follows.recorded, follows.issued, commands, List.getElem?_append_left inside,
        ← follows.indexed]
      exact held
    have one := first.host.matcher.issue_matched shape expected held same false
    have two := second.host.matcher.issue_matched shape expected held' same false
    refine .found (congrArg Prod.snd one) (congrArg Prod.snd two) ?_
    refine lockstep.withHost _ _ ⟨counted first.host.commands first.host.clockReads ?_, fed⟩
    have emits := follows.emits
    cases goal with
    | latest reads => exact emits
    | earlier emitted =>
      obtain ⟨none', unread, discovered, timed⟩ := emits
      refine ⟨none', unread, ?_, timed⟩
      change _ = (first.host.matcher.issue shape false).1.issued.drop _
      rw [issued, discovered, List.drop_eq_nil_of_le (by omega), List.drop_eq_nil_of_le]
      rw [List.length_append, List.length_singleton]
      exact inside
  | none =>
    have past : (recordedCommands history).length ≤ first.host.matcher.issued.length := by
      rw [← follows.indexed]
      exact List.getElem?_eq_none_iff.mp held
    have one := first.host.matcher.issue_new shape held
    have expected : second.host.matcher.expected =
        (recordedCommands rest)[first.host.matcher.issued.length - (recordedCommands history).length]? := by
      rw [CommandMatcher.expected, follows.recorded, follows.issued, commands, List.getElem?_append_right past]
    have emits := follows.emits
    cases goal with
    | latest reads =>
      obtain ⟨none', clock⟩ := prolonged.goal
      subst none'
      have two := second.host.matcher.issue_new shape (by rw [expected]; rfl)
      have whole : recordedCommands history = recordedCommands long.history := by rw [commands]; simp [recordedCommands]
      refine .discovered reads rfl (congrArg Prod.snd one) (congrArg Prod.snd two) ?_ ?_
      · have recordedAll : first.host.matcher.recorded = recordedCommands long.history := follows.indexed.trans whole
        refine unheld_of_matched ?_ (whole ▸ past) recordedAll fresh
        intro position recorded old atPosition found
        refine matched position recorded old ?_ ?_
        · change (first.host.matcher.issue shape false).1.recorded[_]? = _
          rw [unchanged]
          exact atPosition
        · change (first.host.matcher.issue shape false).1.issued[_]? = _
          rw [issued, List.getElem?_append_left (List.getElem?_eq_some_iff.mp found).1]
          exact found
      · exact lockstep.withHost _ _ ⟨counted first.host.commands first.host.clockReads emits, fed⟩
    | earlier emitted =>
      obtain ⟨none', unread, discovered, timed⟩ := emits
      refine .foreseen emitted rfl (congrArg Prod.snd one) fun command reads names leads => ?_
      have longer : recordedCommands ((first.host.commands ++ [command]).map commandToEvent) =
          (first.host.matcher.issued ++ [shape]).drop (recordedCommands history).length := by
        rw [List.map_append, recordedCommands_append, discovered, List.drop_append_of_le_length past]
        simp [recordedCommands, names]
      obtain ⟨later, all⟩ := leads
      obtain ⟨expectedShape, held', same⟩ := prolonged.goal.commands
        (first.host.matcher.issued.length - (recordedCommands history).length) shape (by
          rw [← all, List.map_append, recordedCommands_append, longer, List.drop_append_of_le_length past,
            List.append_assoc, List.getElem?_append_right (by rw [List.length_drop]), List.length_drop, Nat.sub_self]
          rfl)
      have two := second.host.matcher.issue_matched shape expectedShape (expected.trans held') same false
      refine ⟨congrArg Prod.snd two, lockstep.withHost _ _ ⟨counted _ _ ⟨none', unread, ?_, ?_⟩, fed⟩⟩
      · change recordedCommands ((first.host.commands ++ [command]).map commandToEvent) =
          (first.host.matcher.issue shape false).1.issued.drop _
        rw [issued, longer]
      · change (recordedTimes ((first.host.commands ++ [command]).map commandToEvent)).length = _
        rw [List.map_append, recordedTimes_append, List.length_append, timed]
        have timeless : recordedTimes ([command].map commandToEvent) = [] := by
          cases command <;> simp_all [recordedTimes, recordedTime, commandToEvent, recordedCommandOf]
        rw [timeless]
        rfl

/-- A later number makes a new id. -/
theorem fresh_numbered {steps timers : Nat} {issued : List CommandShape} (numbered : ∀ shape ∈ issued, Numbered steps timers shape) :
    (∀ old ∈ issued, ∀ stepType input,
      (old.kind, old.id) ≠ ("step", (CommandShape.step ("step-" ++ toString (steps + 1)) stepType input).id)) ∧
    ∀ old ∈ issued, (old.kind, old.id) ≠ ("timer", "timer-" ++ toString (timers + 1)) := by
  constructor
  · intro old listed stepType input same
    have named := numbered old listed
    cases old with
    | step id =>
      obtain ⟨number, below, rfl⟩ := named
      have equal := numbered_injective _ _ _ (Prod.mk.inj same).2
      omega
    | _ => simp [CommandShape.kind] at same
  · intro old listed same
    have named := numbered old listed
    cases old with
    | timer id =>
      obtain ⟨number, below, rfl⟩ := named
      have equal := numbered_injective _ _ _ (Prod.mk.inj same).2
      omega
    | _ => simp [CommandShape.kind] at same

/-- The counts of steps and timers advance together. -/
theorem Follows.advance {live : LiveState H} {replay : ReplayState H} (follows : Follows long history goal delivered live replay)
    {steps timers steps' timers' : Nat} (more : live.stepSequence ≤ steps) (later : live.timerSequence ≤ timers)
    (sameSteps : steps' = steps) (sameTimers : timers' = timers) :
    Follows long history goal delivered { live with stepSequence := steps, timerSequence := timers }
      { replay with stepSequence := steps', timerSequence := timers' } where
  steps := sameSteps
  timers := sameTimers
  consumed := follows.consumed
  timeCalls := follows.timeCalls
  draws := follows.draws
  settled := follows.settled
  continuation := follows.continuation
  seen := follows.seen
  times := follows.times
  indexed := follows.indexed
  recorded := follows.recorded
  issued := follows.issued
  numbered := by
    intro shape listed
    have named := follows.numbered shape listed
    cases shape with
    | step id =>
      obtain ⟨number, below, rfl⟩ := named
      exact ⟨number, Nat.le_trans below more, rfl⟩
    | timer id =>
      obtain ⟨number, below, rfl⟩ := named
      exact ⟨number, Nat.le_trans below later, rfl⟩
    | _ => trivial
  emits := by
    have emits := follows.emits
    cases goal <;> exact emits
  waiting := follows.waiting
  unresolved := follows.unresolved
  known := follows.known

/-- Both discover a command in the decision that is compared. -/
theorem push_agrees {reads : Nat} (lockstep : Lockstep (alongside H long history (.latest reads) delivered) first second)
    (command : WorkflowCommand) : Lockstep (alongside H long history (.latest reads) delivered) (pushCommand command first)
      (Workflow.pushCommand command second) := by
  obtain ⟨follows, fed⟩ := lockstep.host
  refine lockstep.withHost _ _ ⟨{ follows with emits := ?_ }, fed⟩
  obtain ⟨commands, clock, triggered⟩ := follows.emits
  refine ⟨?_, clock, triggered⟩
  change second.host.newCommands ++ [command] = first.host.commands ++ [command]
  rw [commands]

/-- Both read the same clock in the decision that is compared. -/
theorem readClock_agrees {reads : Nat} (prolonged : Prolonged long options history (.latest reads) rest)
    (lockstep : Lockstep (alongside H long history (.latest reads) delivered) first second) :
    (readClock options first).2 = (Workflow.readClock long second).2 ∧
      Lockstep (alongside H long history (.latest reads) delivered) (readClock options first).1 (Workflow.readClock long second).1 := by
  obtain ⟨follows, fed⟩ := lockstep.host
  obtain ⟨commands, clock, triggered⟩ := follows.emits
  constructor
  · change options.clock first.host.clockReads = long.options.clock second.host.clockReads
    rw [clock, prolonged.goal.2]
  · refine lockstep.withHost _ _ ⟨{ follows with emits := ⟨commands, ?_, triggered⟩ }, fed⟩
    change first.host.clockReads + 1 = reads + (second.host.clockReads + 1)
    rw [clock, Nat.add_assoc]

theorem step_counted (stepType : String) (input : JsValue) {recorded : Bool}
    (one : (stepCounted stepType input first).2 = .ok recorded) :
    step stepType input first = pendingPromise (.step ("step-" ++ toString (first.host.stepSequence + 1)) stepType)
      (if recorded then (stepCounted stepType input first).1 else
        pushCommand (.scheduleStep ("step-" ++ toString (first.host.stepSequence + 1)) stepType input)
          (stepCounted stepType input first).1) := by
  generalize called : stepCounted stepType input first = counted at one ⊢
  unfold step
  dsimp only
  split
  · next issued mismatch answer =>
      obtain rfl : counted = (issued, .error mismatch) := called.symm.trans answer
      cases one
  · next issued recorded' answer =>
      obtain rfl : counted = (issued, .ok recorded') := called.symm.trans answer
      cases one
      rfl

/-- A replay that is not cancelled waits for the outcome, which nobody can have before the step is recorded. -/
theorem replay_step (stepType : String) (input : JsValue) {recorded : Bool} {number : Nat}
    (numbered : second.host.stepSequence + 1 = number) {counted : ReplayWorld H × Except JsValue Bool}
    (issued : Workflow.issue (.step ("step-" ++ toString number) stepType input) false
      (update (fun state => { state with stepSequence := number }) second) = counted)
    (two : counted.2 = .ok recorded)
    (absent : recorded = false → (Waiter.step ("step-" ++ toString number) stepType).placeIn long.history = none) :
    Workflow.step long false stepType input second =
      awaits long (.step ("step-" ++ toString number) stepType) (if recorded then counted.1 else
        Workflow.pushCommand (.scheduleStep ("step-" ++ toString number) stepType input) counted.1) := by
  subst numbered
  simp only [Waiter.placeIn, Waiter.outcome, Waiter.skip] at absent
  unfold Workflow.step
  simp only [awaits, Waiter.placeIn, Waiter.outcome, Waiter.skip]
  split
  · next reached mismatch answer =>
      obtain rfl : counted = (reached, .error mismatch) := issued.symm.trans answer
      cases two
  · next reached recorded' answer =>
      obtain rfl : counted = (reached, .ok recorded') := issued.symm.trans answer
      cases two
      simp only [update]
      generalize nthOutcome _ _ _ long.history = found at absent ⊢
      cases found with
      | some place =>
        cases recorded with
        | true => rfl
        | false => cases absent rfl
      | none => cases recorded <;> rfl

theorem step_agrees (prolonged : Prolonged long options history goal rest)
    (lockstep : Lockstep (alongside H long history goal delivered) first second) (stepType : String) (input : JsValue) :
    Agree (alongside H long history goal delivered) (step stepType input first) (Workflow.step long false stepType input second) := by
  obtain ⟨follows, fed⟩ := lockstep.host
  let waiter : Waiter := .step ("step-" ++ toString (first.host.stepSequence + 1)) stepType
  have numbered : second.host.stepSequence + 1 = first.host.stepSequence + 1 := congrArg (· + 1) follows.steps
  have begun : Lockstep (alongside H long history goal delivered)
      (alter (fun state => { state with stepSequence := state.stepSequence + 1 }) first)
      (update (fun state => { state with stepSequence := first.host.stepSequence + 1 }) second) :=
    lockstep.withHost _ _ ⟨follows.advance (Nat.le_succ _) (Nat.le_refl _) rfl follows.timers, fed⟩
  have counted := count_agrees prolonged begun (.step ("step-" ++ toString (first.host.stepSequence + 1)) stepType input)
    ⟨_, Nat.le_refl _, rfl⟩ (fun old listed => (fresh_numbered follows.numbered).1 old listed stepType input)
  cases counted with
  | lost strayed => exact .inl ((step_grows stepType input first).lost strayed)
  | found one two lockstep =>
    rw [step_counted stepType input one, replay_step stepType input numbered rfl two (by rintro ⟨⟩)]
    exact pendingPromise_agrees lockstep waiter
  | foreseen emitted earlier one leads =>
    rw [step_counted stepType input one]
    by_cases strays : first.host.commands ++
        [.scheduleStep ("step-" ++ toString (first.host.stepSequence + 1)) stepType input] <+: emitted
    · obtain ⟨two, lockstep⟩ := leads _ first.host.clockReads rfl strays
      rw [replay_step stepType input numbered rfl two (by rintro ⟨⟩)]
      exact pendingPromise_agrees lockstep waiter
    · refine .inl ((pendingPromise_grows _ _).lost (.inr (.inr ?_)))
      rw [earlier]
      exact .inl strays
  | discovered reads latest one two unheld lockstep =>
    have absent : waiter.placeIn long.history = none := by
      by_contra ended
      obtain ⟨recordedType, input', held⟩ := prolonged.supported.justified.step _ _ ended
      exact unheld _ held rfl
    rw [step_counted stepType input one, replay_step stepType input numbered rfl two fun _ => absent]
    subst latest
    exact pendingPromise_agrees (push_agrees lockstep _) waiter

/-- A timer whose command the history holds. -/
theorem sleep_found {durationMs : JsNumber} {duration : Rat} (valid : durationMs.sleepMs = some duration)
    (one : (timerCounted durationMs first).2 = .ok true) :
    sleep options durationMs first = pendingPromise (.timer ("timer-" ++ toString (first.host.timerSequence + 1)))
      (timerCounted durationMs first).1 := by
  generalize called : timerCounted durationMs first = counted at one ⊢
  unfold sleep
  rw [valid]
  dsimp only
  split
  · next issued mismatch answer =>
      obtain rfl : counted = (issued, .error mismatch) := called.symm.trans answer
      cases one
  · next issued answer =>
      obtain rfl : counted = (issued, .ok true) := called.symm.trans answer
      rfl
  · next issued answer =>
      obtain rfl : counted = (issued, .ok false) := called.symm.trans answer
      cases one

/-- A new timer. -/
theorem sleep_new {durationMs : JsNumber} {duration : Rat} (valid : durationMs.sleepMs = some duration)
    (one : (timerCounted durationMs first).2 = .ok false) :
    sleep options durationMs first =
      match (readClock options (timerCounted durationMs first).1).2.after duration with
      | none => (alter (fun state => { state with unrepresentableTimers := state.unrepresentableTimers ++
            ["timer-" ++ toString (first.host.timerSequence + 1)] })
          (readClock options (timerCounted durationMs first).1).1, .error invalidTimeError)
      | some fireAt => pendingPromise (.timer ("timer-" ++ toString (first.host.timerSequence + 1)))
          (pushCommand (.startTimer ("timer-" ++ toString (first.host.timerSequence + 1)) fireAt durationMs)
            (readClock options (timerCounted durationMs first).1).1) := by
  generalize called : timerCounted durationMs first = counted at one ⊢
  unfold sleep
  rw [valid]
  dsimp only
  split
  · next issued mismatch answer =>
      obtain rfl : counted = (issued, .error mismatch) := called.symm.trans answer
      cases one
  · next issued answer =>
      obtain rfl : counted = (issued, .ok true) := called.symm.trans answer
      cases one
  · next issued answer =>
      obtain rfl : counted = (issued, .ok false) := called.symm.trans answer
      rfl

/-- A replay that is not cancelled waits for a timer that its history holds. -/
theorem replay_sleep_found {durationMs : JsNumber} {duration : Rat} (valid : durationMs.sleepMs = some duration) {number : Nat}
    (numbered : second.host.timerSequence + 1 = number) {counted : ReplayWorld H × Except JsValue Bool}
    (issued : Workflow.issue (.timer ("timer-" ++ toString number) (some durationMs)) false
      (update (fun state => { state with timerSequence := number }) second) = counted)
    (two : counted.2 = .ok true) :
    Workflow.sleep long false durationMs second = awaits long (.timer ("timer-" ++ toString number)) counted.1 := by
  subst numbered
  unfold Workflow.sleep
  rw [valid]
  simp only [awaits, Waiter.placeIn, Waiter.outcome, Waiter.skip]
  split
  · next reached mismatch answer =>
      obtain rfl : counted = (reached, .error mismatch) := issued.symm.trans answer
      cases two
  · next reached recorded' answer =>
      obtain rfl : counted = (reached, .ok recorded') := issued.symm.trans answer
      cases two
      simp only [update]
      generalize nthOutcome _ _ _ long.history = found
      cases found <;> rfl

/-- A replay starts a timer that its history does not hold. -/
theorem replay_sleep_new {durationMs : JsNumber} {duration : Rat} (valid : durationMs.sleepMs = some duration) {number : Nat}
    (numbered : second.host.timerSequence + 1 = number) {counted : ReplayWorld H × Except JsValue Bool}
    (issued : Workflow.issue (.timer ("timer-" ++ toString number) (some durationMs)) false
      (update (fun state => { state with timerSequence := number }) second) = counted)
    (two : counted.2 = .ok false) (absent : (Waiter.timer ("timer-" ++ toString number)).placeIn long.history = none) :
    Workflow.sleep long false durationMs second =
      match (Workflow.readClock long counted.1).2.after duration with
      | none => (noteUnrepresentable ("timer-" ++ toString number) (Workflow.readClock long counted.1).1, .error invalidTimeError)
      | some fireAt => awaits long (.timer ("timer-" ++ toString number))
          (Workflow.pushCommand (.startTimer ("timer-" ++ toString number) fireAt durationMs)
            (Workflow.readClock long counted.1).1) := by
  subst numbered
  simp only [Waiter.placeIn, Waiter.outcome, Waiter.skip] at absent
  unfold Workflow.sleep
  rw [valid]
  simp only [awaits, Waiter.placeIn, Waiter.outcome, Waiter.skip, absent]
  split
  · next reached mismatch answer =>
      obtain rfl : counted = (reached, .error mismatch) := issued.symm.trans answer
      cases two
  · next reached recorded' answer =>
      obtain rfl : counted = (reached, .ok recorded') := issued.symm.trans answer
      cases two
      simp only [update, absent]
      rfl

theorem sleep_agrees (prolonged : Prolonged long options history goal rest)
    (lockstep : Lockstep (alongside H long history goal delivered) first second) (durationMs : JsNumber) :
    Agree (alongside H long history goal delivered) (sleep options durationMs first) (Workflow.sleep long false durationMs second) := by
  obtain ⟨follows, fed⟩ := lockstep.host
  cases valid : durationMs.sleepMs with
  | none =>
    unfold sleep Workflow.sleep
    rw [valid]
    exact alloc_agrees lockstep _ _ _ _
  | some duration =>
    let waiter : Waiter := .timer ("timer-" ++ toString (first.host.timerSequence + 1))
    have numbered : second.host.timerSequence + 1 = first.host.timerSequence + 1 := congrArg (· + 1) follows.timers
    have begun : Lockstep (alongside H long history goal delivered)
        (alter (fun state => { state with timerSequence := state.timerSequence + 1 }) first)
        (update (fun state => { state with timerSequence := first.host.timerSequence + 1 }) second) :=
      lockstep.withHost _ _ ⟨follows.advance (Nat.le_refl _) (Nat.le_succ _) follows.steps rfl, fed⟩
    have counted := count_agrees prolonged begun
      (.timer ("timer-" ++ toString (first.host.timerSequence + 1)) (some durationMs))
      ⟨_, Nat.le_refl _, rfl⟩ (fresh_numbered follows.numbered).2
    cases counted with
    | lost strayed => exact .inl ((sleep_grows options durationMs duration first valid).lost strayed)
    | found one two lockstep =>
      rw [sleep_found valid one, replay_sleep_found valid numbered rfl two]
      exact pendingPromise_agrees lockstep waiter
    | foreseen emitted earlier one leads =>
      rw [sleep_new valid one]
      split
      · refine .inl (.inr (.inr ?_))
        rw [earlier]
        exact .inr (List.append_ne_nil_of_right_ne_nil _ (List.cons_ne_nil _ _))
      · next fireAt _ =>
          by_cases strays : first.host.commands ++
              [.startTimer ("timer-" ++ toString (first.host.timerSequence + 1)) fireAt durationMs] <+: emitted
          · obtain ⟨two, lockstep⟩ := leads _ (first.host.clockReads + 1) rfl strays
            rw [replay_sleep_found valid numbered rfl two]
            exact pendingPromise_agrees lockstep waiter
          · refine .inl ((pendingPromise_grows _ _).lost (.inr (.inr ?_)))
            rw [earlier]
            exact .inl strays
    | discovered reads latest one two unheld lockstep =>
      subst latest
      have absent : waiter.placeIn long.history = none := by
        by_contra fired
        obtain ⟨durationMs', held⟩ := prolonged.supported.justified.timer _ fired
        exact unheld _ held rfl
      obtain ⟨sameReading, read⟩ := readClock_agrees prolonged lockstep
      rw [sleep_new valid one, replay_sleep_new valid numbered rfl two absent,
        show (readClock options (timerCounted durationMs first).1).2 = _ from sameReading]
      split
      · refine .inr ⟨?_, rfl⟩
        exact read.withHost _ _ ⟨{ read.host.1 with }, read.host.2⟩
      · exact pendingPromise_agrees (push_agrees read _) waiter

theorem waitForSignal_agrees (lockstep : Lockstep (alongside H long history goal delivered) first second) (signalName : String) :
    Agree (alongside H long history goal delivered) (waitForSignal signalName first)
      (Workflow.waitForSignal long false signalName second) := by
  obtain ⟨follows, fed⟩ := lockstep.host
  have counted : Lockstep (alongside H long history goal delivered)
      (alter (fun state => { state with
        signalConsumption := Function.update state.signalConsumption signalName
          (first.host.signalConsumption signalName + 1) }) first)
      (update (fun state => { state with
        signalSequences := Function.update state.signalSequences signalName
          (second.host.signalSequences signalName + 1) }) second) := by
    refine lockstep.withHost _ _ ⟨{ follows with consumed := ?_, emits := ?_ }, fed⟩
    · change Function.update second.host.signalSequences signalName _ = Function.update first.host.signalConsumption signalName _
      rw [follows.consumed]
    · have emits := follows.emits
      cases goal <;> exact emits
  have agrees := pendingPromise_agrees counted (.signal signalName (first.host.signalConsumption signalName))
  have waited : Workflow.waitForSignal long false signalName second =
      awaits long (.signal signalName (first.host.signalConsumption signalName))
        (update (fun state => { state with
          signalSequences := Function.update state.signalSequences signalName
            (second.host.signalSequences signalName + 1) }) second) := by
    unfold Workflow.waitForSignal awaits Waiter.placeIn
    simp only [Waiter.outcome, Waiter.skip, ← follows.consumed]
    generalize nthOutcome _ _ _ long.history = found
    cases found <;> rfl
  rw [waited]
  exact agrees

/-- Both have read the time once more. -/
theorem Follows.tick {live : LiveState H} {replay : ReplayState H} (follows : Follows long history goal delivered live replay)
    (commands commands' : List WorkflowCommand) (reads reads' : Nat)
    (emits : Emits long history { live with timeCalls := live.timeCalls + 1, commands := commands, clockReads := reads }
      { replay with timeCalls := replay.timeCalls + 1, newCommands := commands', clockReads := reads' } goal) :
    Follows long history goal delivered
      { live with timeCalls := live.timeCalls + 1, commands := commands, clockReads := reads }
      { replay with timeCalls := replay.timeCalls + 1, newCommands := commands', clockReads := reads' } :=
  { follows with
    timeCalls := congrArg (· + 1) follows.timeCalls
    emits := emits }

/-- The time that a call past the recorded ones answers, and how often the clock has been read then. -/
def Reading (trigger : Option Instant) (clock : Nat → Instant) (before : Nat) (time : Instant) (after : Nat) : Prop :=
  trigger = some time ∧ after = before ∨ trigger = none ∧ time = clock before ∧ after = before + 1

theorem reading_exists (trigger : Option Instant) (clock : Nat → Instant) (before : Nat) :
    ∃ time after, Reading trigger clock before time after := by
  cases trigger with
  | some time => exact ⟨time, before, .inl ⟨rfl, rfl⟩⟩
  | none => exact ⟨clock before, before + 1, .inr ⟨rfl, rfl, rfl⟩⟩

theorem now_new {time : Instant} {reads : Nat} (absent : first.host.recordedTimes[first.host.timeCalls]? = none)
    (reading : Reading first.host.triggeredAt options.clock first.host.clockReads time reads) :
    now options first = (alter (fun state => { state with
      timeCalls := state.timeCalls + 1
      commands := state.commands ++ [.recordTime time]
      clockReads := reads }) first, .ok (.date time)) := by
  unfold now
  simp only [alter, absent]
  rcases reading with ⟨triggered, rfl⟩ | ⟨untriggered, rfl, rfl⟩
  · rw [triggered]
    rfl
  · rw [untriggered]
    rfl

theorem now_recorded {time : Instant} (found : first.host.recordedTimes[first.host.timeCalls]? = some time) :
    now options first = (alter (fun state => { state with timeCalls := state.timeCalls + 1 }) first, .ok (.date time)) := by
  unfold now
  simp only [alter, found]

theorem replay_now_new {time : Instant} {reads : Nat}
    (absent : (recordedTimes long.history)[second.host.timeCalls]? = none)
    (reading : Reading long.options.triggeredAt long.options.clock second.host.clockReads time reads) :
    Workflow.now long second = (update (fun state => { state with
      timeCalls := state.timeCalls + 1
      newCommands := state.newCommands ++ [.recordTime time]
      clockReads := reads }) second, .ok (.date time)) := by
  unfold Workflow.now
  simp only [update, absent]
  rcases reading with ⟨triggered, rfl⟩ | ⟨untriggered, rfl, rfl⟩
  · rw [triggered]
    rfl
  · rw [untriggered]
    rfl

theorem replay_now_recorded {time : Instant} (found : (recordedTimes long.history)[second.host.timeCalls]? = some time) :
    Workflow.now long second =
      (update (fun state => { state with timeCalls := state.timeCalls + 1 }) second, .ok (.date time)) := by
  unfold Workflow.now
  simp only [update, found]

/-- The time that a session records is the one that the replay reads back, or discovers as well. -/
theorem now_agrees (prolonged : Prolonged long options history goal rest)
    (lockstep : Lockstep (alongside H long history goal delivered) first second) :
    Agree (alongside H long history goal delivered) (now options first) (Workflow.now long second) := by
  obtain ⟨follows, fed⟩ := lockstep.host
  have emits := follows.emits
  have whole := prolonged.times
  by_cases inside : first.host.timeCalls < (recordedTimes history).length
  · have found : first.host.recordedTimes[first.host.timeCalls]? = some (recordedTimes history)[first.host.timeCalls] := by
      rw [follows.times, List.getElem?_eq_getElem inside]
    have found' : (recordedTimes long.history)[second.host.timeCalls]? = some (recordedTimes history)[first.host.timeCalls] := by
      rw [whole, follows.timeCalls, List.getElem?_append_left inside, List.getElem?_eq_getElem inside]
    rw [now_recorded found, replay_now_recorded found']
    refine .inr ⟨lockstep.withHost _ _ ⟨follows.tick _ _ _ _ ?_, fed⟩, rfl⟩
    cases goal with
    | latest reads => exact emits
    | earlier emitted =>
      obtain ⟨none', unread, discovered, timed⟩ := emits
      refine ⟨none', unread, discovered, ?_⟩
      change (recordedTimes (first.host.commands.map commandToEvent)).length = first.host.timeCalls + 1 - _
      omega
  · have past := Nat.le_of_not_lt inside
    have absent : first.host.recordedTimes[first.host.timeCalls]? = none := by
      rw [follows.times, List.getElem?_eq_none past]
    obtain ⟨time, reads, reading⟩ := reading_exists first.host.triggeredAt options.clock first.host.clockReads
    rw [now_new absent reading]
    cases goal with
    | latest before =>
      obtain ⟨commands, clock, triggered⟩ := emits
      obtain ⟨rfl, sameClock⟩ := prolonged.goal
      have absent' : (recordedTimes long.history)[second.host.timeCalls]? = none := by
        rw [whole, follows.timeCalls]
        exact List.getElem?_eq_none (by simpa [recordedTimes] using past)
      have reading' : Reading long.options.triggeredAt long.options.clock second.host.clockReads time (reads - before) := by
        rcases reading with ⟨known, rfl⟩ | ⟨unknown, rfl, rfl⟩
        · exact .inl ⟨triggered ▸ known, by omega⟩
        · exact .inr ⟨triggered ▸ unknown, by rw [clock, sameClock], by omega⟩
      rw [replay_now_new absent' reading']
      refine .inr ⟨lockstep.withHost _ _ ⟨follows.tick _ _ _ _ ⟨congrArg (· ++ _) commands, ?_, triggered⟩, fed⟩, rfl⟩
      change reads = before + (reads - before)
      rcases reading with ⟨_, rfl⟩ | ⟨_, _, rfl⟩ <;> omega
    | earlier emitted =>
      obtain ⟨none', unread, discovered, timed⟩ := emits
      by_cases leads : first.host.commands ++ [.recordTime time] <+: emitted
      · -- The time that is pushed is the next of the times that the session emits.
        have foreseen : (recordedTimes long.history)[second.host.timeCalls]? = some time := by
          obtain ⟨later, all⟩ := leads
          obtain ⟨others, longer⟩ := prolonged.goal.times
          rw [whole, follows.timeCalls, List.getElem?_append_right past, ← longer, ← all, List.map_append, List.map_append,
            recordedTimes_append, recordedTimes_append, ← timed, List.append_assoc, List.append_assoc,
            List.getElem?_append_right (Nat.le_refl _), Nat.sub_self]
          rfl
        rw [replay_now_recorded foreseen]
        refine .inr ⟨lockstep.withHost _ _ ⟨follows.tick _ _ _ _ ⟨none', unread, ?_, ?_⟩, fed⟩, rfl⟩
        · change recordedCommands ((first.host.commands ++ [WorkflowCommand.recordTime time]).map commandToEvent) = _
          rw [List.map_append, recordedCommands_append, discovered]
          exact List.append_nil _
        · change (recordedTimes ((first.host.commands ++ [WorkflowCommand.recordTime time]).map commandToEvent)).length =
            first.host.timeCalls + 1 - _
          rw [List.map_append, recordedTimes_append, List.length_append, timed]
          change _ + 1 = _
          omega
      · exact .inl (.inr (.inr (.inl leads)))

theorem draw_agrees (lockstep : Lockstep (alongside H long history goal delivered) first second) (value : Nat → JsValue) :
    Agree (alongside H long history goal delivered) (draw value first) (Workflow.draw value second) := by
  obtain ⟨follows, fed⟩ := lockstep.host
  refine .inr ⟨lockstep.withHost _ _ ⟨{ follows with draws := congrArg (· + 1) follows.draws, emits := ?_ }, fed⟩, ?_⟩
  · have emits := follows.emits
    cases goal <;> exact emits
  · exact congrArg (fun count => Except.ok (value count)) follows.draws.symm

/-- A supported history asks for no cancellation. -/
theorem Supported.going {history : List WorkflowEvent} (supported : Supported history) : cancelRequested history = false := by
  refine List.any_eq_false.mpr fun event listed requested => ?_
  have known := supported.events event listed
  cases event <;> simp_all [isSupportedEvent, WorkflowEvent.isCancelRequested]

theorem contextCall_agrees (prolonged : Prolonged long options history goal rest)
    (lockstep : Lockstep (alongside H long history goal delivered) first second) (operation : Operation H)
    (callbacks : Nat → WorkflowCode H) (running : Nat → ReplayEffect H) :
    Agree (alongside H long history goal delivered) (contextCall options operation first)
      (Workflow.contextCall long operation callbacks running second) := by
  have going : (operation.context == .workflow && cancelRequested long.history) = false := by
    rw [prolonged.supported.going, Bool.and_false]
  unfold contextCall Workflow.contextCall
  rw [going]
  cases operation.call with
  | step stepType input => exact step_agrees prolonged lockstep stepType input
  | sleep durationMs => exact sleep_agrees prolonged lockstep durationMs
  | waitForSignal signalName => exact waitForSignal_agrees lockstep signalName
  | setQueryHandler queryName handler =>
    obtain ⟨follows, fed⟩ := lockstep.host
    refine .inr ⟨lockstep.withHost _ _ ⟨{ follows with emits := ?_ }, fed⟩, rfl⟩
    have emits := follows.emits
    cases goal <;> exact emits
  | now => exact now_agrees prolonged lockstep
  | random =>
    dsimp only
    rw [prolonged.random]
    exact draw_agrees lockstep _
  | uuid =>
    dsimp only
    rw [prolonged.random]
    exact draw_agrees lockstep _
  | _ => exact .inl (.inl rfl)

/-- A replay of the whole history follows a live session. -/
theorem live_simulates (prolonged : Prolonged long options history goal rest) :
    Simulates (alongside H long history goal delivered) (liveHost H options) (replayHost H long) where
  fresh := trivial
  thawed := id
  lost := live_keeps options fun _ _ grows lost => grows.lost lost
  call operation callbacks _ right _ _ _ _ lockstep := contextCall_agrees prolonged lockstep operation callbacks right
  resume resume outcome _ _ _ _ first second lockstep := by
    cases resume with
    | handlerSettled =>
      obtain ⟨follows, fed⟩ := lockstep.host
      refine .inr (lockstep.withHost _ _ ⟨{ follows with settled := rfl, emits := ?_ }, fed⟩)
      have emits := follows.emits
      cases goal <;> exact emits
    | _ => exact .inl (.inl rfl)

end Agreement

end DurableExecution.Workflow.Live

import DurableExecution.EventLoop.Lockstep
import DurableExecution.Workflow.Feeding

/-
This file compares two replays of one run. The second history goes on with the events
of the commands that the first replay discovers, and the second replay follows the first
one call by call; it differs only in the waits that its own history ends later.
-/

namespace DurableExecution.Workflow

open EventLoop

/-- Whether a history holds the event that ends a wait. -/
def Wait.endedBy (history : List WorkflowEvent) : Wait → Prop
  | .step stepId => ∃ stepType, nthOutcome (stepOutcome stepId stepType) 0 0 history ≠ none
  | .timer timerId => nthOutcome (timerOutcome timerId) 0 0 history ≠ none
  | .signal signalName number => nthOutcome (signalOutcome signalName) (number - 1) 0 history ≠ none
  | .child childId => nthOutcome (childOutcome childId) 0 0 history ≠ none

/-- An event that is not the record of a command, nor the request to cancel. -/
structure WorkflowEvent.External (event : WorkflowEvent) : Prop where
  command : recordedCommandOf event = none
  time : recordedTime event = none
  failure : recordedCompensationFailure event = none
  cancel : event.isCancelRequested = false

/-- Each recorded command is the one the code issued at its position. -/
def CommandMatcher.Matched (matcher : CommandMatcher) : Prop :=
  ∀ (position : Nat) (recorded issued : CommandShape), matcher.recorded[position]? = some recorded →
    matcher.issued[position]? = some issued → sameCommand recorded issued = true

/-- The second history records what the first replay discovered, and goes on with
external events. `final` is the ledger the first replay ended with. -/
structure Continues (short long : Replay) (final : Ledger) (rest : List WorkflowEvent) : Prop where
  history : long.history = short.history ++ (final.newCommands.map commandToEvent ++ rest)
  external : ∀ event ∈ rest, event.External
  random : long.options.random = short.options.random
  childLimit : long.options.childLimit = short.options.childLimit
  recorded : final.matcher.recorded = recordedCommands short.history
  matched : final.matcher.Matched
  discovered : recordedCommands (final.newCommands.map commandToEvent) =
    final.matcher.issued.drop (recordedCommands short.history).length
  patches : ∀ patchId, CommandShape.patch patchId ∈ final.matcher.issued →
    final.patchDecisions.lookup patchId = some true
  encodable : ∀ shape ∈ final.matcher.issued, sameCommand shape shape = true
  representable : final.unrepresentableTimers = []
  choices : final.cancelledChoices = 0
  rejected : ∀ wait ∈ final.rejectedWaits, ¬ wait.endedBy long.history

/-- A place that the first history does not reach. -/
def WaitTag.Beyond (short : Replay) (tag : WaitTag) : Prop :=
  ∃ place, tag.completionPosition = some place ∧ short.history.length ≤ place

/-- A place that the first history reaches, or a wait that its cancellation ended. -/
structure WaitTag.Within (short : Replay) (tag : WaitTag) : Prop where
  reached : ¬ tag.Beyond short
  requested : tag.cancelled = true → cancelRequested short.history = true

/-- The tags of the same promise in both replays. -/
structure WaitTag.Prolongs (short : Replay) (one two : WaitTag) : Prop where
  cancelled : one.cancelled = two.cancelled
  requested : two.cancelled = true → cancelRequested short.history = true
  position : (one.completionPosition = two.completionPosition ∧ ¬ two.Beyond short) ∨
    (one.completionPosition = none ∧ two.Beyond short)

/-- The states of both replays after the same calls. -/
inductive Progress {H : Type} (short long : Replay) : ReplayState H → ReplayState H → Prop where
  | same (state : ReplayState H) (matcher : CommandMatcher)
      (deliveries : List (Nat × PromiseId × Except JsValue JsValue)) (clockReads : Nat)
      (inFlightSteps : List String)
      (recorded : state.matcher.recorded = recordedCommands short.history)
      (longer : matcher.recorded = recordedCommands long.history)
      (issued : matcher.issued = state.matcher.issued)
      (pending : state.deliveries = deliveries.filter fun delivery => delivery.1 < short.history.length)
      (fed : state.fedUpTo < short.history.length)
      (inFlight : state.inFlightSteps = [] → inFlightSteps = [])
      (times : (recordedTimes (state.newCommands.map commandToEvent)).length =
        state.timeCalls - (recordedTimes short.history).length) :
      Progress short long state { state with
        matcher := matcher
        newCommands := []
        deliveries := deliveries
        clockReads := clockReads
        inFlightSteps := inFlightSteps }

/-- The first replay is lost when it no longer leads to the ledger that was recorded. -/
def prolonged (H : Type) (short long : Replay) (final : Ledger) :
    Comparison WaitTag (ReplayState H) (ReplayState H) where
  tags := WaitTag.Prolongs short
  frozen := WaitTag.Beyond short
  hosts := Progress short long
  lost state := ¬ state.ledger.Extends final

theorem unplaced_within (short : Replay) (cancelled : Bool)
    (requested : cancelled = true → cancelRequested short.history = true) :
    (⟨none, cancelled⟩ : WaitTag).Within short := ⟨(fun ⟨_, placed, _⟩ => nomatch placed), requested⟩

theorem fresh_within (short : Replay) : (default : WaitTag).Within short := unplaced_within short false nofun

theorem fresh_prolongs (short : Replay) : (default : WaitTag).Prolongs short default :=
  ⟨rfl, (fresh_within short).requested, .inl ⟨rfl, (fresh_within short).reached⟩⟩

section Matching

variable {short long : Replay} {final : Ledger} {rest : List WorkflowEvent}

theorem recordedCommands_append (first second : List WorkflowEvent) :
    recordedCommands (first ++ second) = recordedCommands first ++ recordedCommands second :=
  List.filterMap_append

theorem recordedTimes_append (first second : List WorkflowEvent) :
    recordedTimes (first ++ second) = recordedTimes first ++ recordedTimes second :=
  List.filterMap_append

theorem cancelRequested_append (first second : List WorkflowEvent) :
    cancelRequested (first ++ second) = (cancelRequested first || cancelRequested second) :=
  List.any_append

/-- The recorded patches are the recorded commands of their kind. -/
theorem mem_recordedPatchIds (history : List WorkflowEvent) (patchId : String) :
    patchId ∈ recordedPatchIds history ↔ CommandShape.patch patchId ∈ recordedCommands history := by
  simp only [recordedPatchIds, recordedCommands, List.mem_filterMap]
  constructor
  · rintro ⟨event, member, recorded⟩
    cases event <;> simp_all [recordedPatchId]
    exact ⟨_, member, rfl⟩
  · rintro ⟨event, member, recorded⟩
    cases event <;> simp_all [recordedCommandOf]
    exact ⟨_, member, rfl⟩

/-- External events record no command. -/
theorem external_commands (external : ∀ event ∈ rest, event.External) : recordedCommands rest = [] := by
  simp only [recordedCommands, List.filterMap_eq_nil_iff]
  exact fun event member => (external event member).command

theorem external_times (external : ∀ event ∈ rest, event.External) : recordedTimes rest = [] := by
  simp only [recordedTimes, List.filterMap_eq_nil_iff]
  exact fun event member => (external event member).time

/-- The second history holds the commands of the first and those it discovered. -/
theorem Continues.commands (continues : Continues short long final rest) : recordedCommands long.history = recordedCommands short.history ++
      final.matcher.issued.drop (recordedCommands short.history).length := by
  rw [continues.history, recordedCommands_append, recordedCommands_append,
    external_commands continues.external, List.append_nil, continues.discovered]

theorem Continues.times (continues : Continues short long final rest) : recordedTimes long.history = recordedTimes short.history ++
      recordedTimes (final.newCommands.map commandToEvent) := by
  rw [continues.history, recordedTimes_append, recordedTimes_append,
    external_times continues.external, List.append_nil]

/-- No command asks for a cancellation. -/
theorem commandToEvent_cancel (command : WorkflowCommand) : (commandToEvent command).isCancelRequested = false := by
  cases command <;> rfl

theorem Continues.cancelled (continues : Continues short long final rest) :
    cancelRequested long.history = cancelRequested short.history := by
  have discovered : (final.newCommands.map commandToEvent).any WorkflowEvent.isCancelRequested = false := by
    simp only [List.any_map, List.any_eq_false, Function.comp_apply, Bool.not_eq_true]
    exact fun command _ => commandToEvent_cancel command
  have external : rest.any WorkflowEvent.isCancelRequested = false := by
    simp only [List.any_eq_false, Bool.not_eq_true]
    exact fun event member => (continues.external event member).cancel
  simp only [cancelRequested, continues.history, List.any_append, discovered, external, Bool.or_false]

/-- Past the first history, the second one records what the first replay issued there. -/
theorem Continues.expected (continues : Continues short long final rest) (position : Nat)
    (past : (recordedCommands short.history).length ≤ position) :
    (recordedCommands long.history)[position]? = final.matcher.issued[position]? := by
  rw [continues.commands, List.getElem?_append_right past, List.getElem?_drop]
  congr 1
  omega

/-- Two numbers of one kind make two ids. -/
theorem numbered_injective (kind : String) (one two : Nat) (same : kind ++ toString one = kind ++ toString two) : one = two := by
  have lists := congrArg String.toList same
  rw [String.toList_append, String.toList_append, List.append_cancel_left_eq,
    Nat.toString_eq_repr, Nat.toString_eq_repr, Nat.toList_repr, Nat.toList_repr] at lists
  have values := congrArg (Nat.ofDigitChars 10 · 0) lists
  simpa only [Nat.ofDigitChars_ten_toDigits] using values

/-- A command with a later number is another command. -/
theorem CommandShape.Latest.differs {ledger after : Ledger} {shape other : CommandShape}
    (latest : shape.Latest ledger) (between : other.Between ledger after) : sameCommand other shape = false := by
  cases shape with
  | patch id => exact False.elim latest
  | step id =>
    cases other with
    | step id' =>
      obtain ⟨number, named, above, _⟩ := between
      have differ : id' ≠ id := by
        rintro rfl
        exact absurd (numbered_injective _ _ _ (named.symm.trans latest)) (Nat.ne_of_gt above)
      simp [sameCommand, differ]
    | _ => rfl
  | timer id =>
    cases other with
    | timer id' =>
      obtain ⟨⟨number, named, above, _⟩, _⟩ := between
      have differ : id' ≠ id := by
        rintro rfl
        exact absurd (numbered_injective _ _ _ (named.symm.trans latest)) (Nat.ne_of_gt above)
      simp [sameCommand, differ]
    | _ => rfl
  | child id =>
    cases other with
    | child id' =>
      obtain ⟨number, named, above, _⟩ := between
      have differ : id' ≠ id := by
        rintro rfl
        exact absurd (numbered_injective _ _ _ (named.symm.trans latest)) (Nat.ne_of_gt above)
      simp [sameCommand, differ]
    | _ => rfl

/-- The second matcher knows every call that the first one counts, and skips the others. -/
theorem Continues.issue (continues : Continues short long final rest) (one two : CommandMatcher)
    (shape : CommandShape) (cancelled : Bool) (after : Ledger)
    (recorded : one.recorded = recordedCommands short.history)
    (longer : two.recorded = recordedCommands long.history) (issued : two.issued = one.issued)
    (taken : after.matcher = (one.issue shape cancelled).1)
    (latest : cancelled = true → shape.Latest after) (kept : after.Extends final) :
    ∃ known, (one.issue shape cancelled).2 = .ok known ∧
      two.issue shape cancelled =
        ({ two with issued := (one.issue shape cancelled).1.issued }, .ok (known || !cancelled)) := by
  obtain ⟨later, finalIssued, between⟩ := kept.issued
  have unchanged : { two with issued := one.issued } = two := by rw [← issued]
  by_cases inside : one.issued.length < (recordedCommands short.history).length
  · -- both histories hold the same command here
    obtain ⟨expected, found⟩ : ∃ expected, one.expected = some expected :=
      ⟨_, List.getElem?_eq_getElem (recorded ▸ inside)⟩
    have found' : two.expected = some expected := by
      unfold CommandMatcher.expected at found ⊢
      rw [issued, longer, continues.commands, List.getElem?_append_left inside, ← recorded, found]
    by_cases same : sameCommand expected shape = true
    · rw [one.issue_matched shape expected found same, two.issue_matched shape expected found' same]
      exact ⟨true, rfl, by rw [issued, Bool.true_or]⟩
    · cases cancelled with
      | true =>
        rw [one.issue_skipped shape (by simp [CommandMatcher.expects, found, same]),
          two.issue_skipped shape (by simp [CommandMatcher.expects, found', same])]
        exact ⟨false, rfl, by rw [unchanged]; rfl⟩
      | false =>
        rw [taken, CommandMatcher.issue_issued, List.append_assoc] at finalIssued
        refine absurd (continues.matched one.issued.length expected shape ?_ ?_) same
        · rw [continues.recorded, ← recorded]
          exact found
        · simp [finalIssued]
  · have past : (recordedCommands short.history).length ≤ one.issued.length := Nat.le_of_not_lt inside
    have absent : one.expected = none := List.getElem?_eq_none (recorded ▸ past)
    have expected' : two.expected = final.matcher.issued[one.issued.length]? := by
      unfold CommandMatcher.expected
      rw [longer, issued, continues.expected _ past]
    cases cancelled with
    | true =>
      rw [one.issue_skipped shape (by simp [CommandMatcher.expects, absent])] at taken ⊢
      have unexpected : two.expects shape = false := by
        unfold CommandMatcher.expects
        rw [expected']
        split
        · next other held =>
            rw [finalIssued, taken, List.getElem?_append_right (Nat.le_refl _)] at held
            exact (latest rfl).differs (between other (List.mem_of_getElem? held))
        · rfl
      rw [two.issue_skipped shape unexpected]
      exact ⟨false, rfl, by rw [unchanged]; rfl⟩
    | false =>
      rw [one.issue_new shape absent] at taken ⊢
      rw [taken, List.append_assoc] at finalIssued
      have held : two.expected = some shape := by
        rw [expected', finalIssued]
        simp
      have encodable : sameCommand shape shape = true :=
        continues.encodable shape (finalIssued ▸ by simp)
      rw [two.issue_matched shape shape held encodable]
      exact ⟨false, rfl, by rw [issued]; rfl⟩

end Matching

section Waits

variable {H : Type} {short long : Replay} {final : Ledger} {rest : List WorkflowEvent}
variable {first second : ReplayWorld H}

theorem Progress.fedUpTo_eq {one two : ReplayState H} (progress : Progress short long one two) : one.fedUpTo = two.fedUpTo := by
  cases progress
  rfl

theorem Progress.fed {one two : ReplayState H} (progress : Progress short long one two) : two.fedUpTo < short.history.length := by
  cases progress
  assumption

theorem Progress.recorded {one two : ReplayState H} (progress : Progress short long one two) :
    one.matcher.recorded = recordedCommands short.history := by
  cases progress
  assumption

theorem Progress.longer {one two : ReplayState H} (progress : Progress short long one two) :
    two.matcher.recorded = recordedCommands long.history := by
  cases progress
  assumption

theorem Progress.issued {one two : ReplayState H} (progress : Progress short long one two) : two.matcher.issued = one.matcher.issued := by
  cases progress
  assumption

theorem Progress.stepSequence_eq {one two : ReplayState H} (progress : Progress short long one two) :
    two.stepSequence = one.stepSequence := by
  cases progress
  rfl

theorem Progress.timerSequence_eq {one two : ReplayState H} (progress : Progress short long one two) :
    two.timerSequence = one.timerSequence := by
  cases progress
  rfl

theorem Progress.childSequence_eq {one two : ReplayState H} (progress : Progress short long one two) :
    two.childSequence = one.childSequence := by
  cases progress
  rfl

theorem Progress.signalSequences_eq {one two : ReplayState H} (progress : Progress short long one two) :
    two.signalSequences = one.signalSequences := by
  cases progress
  rfl

theorem Progress.patchDecisions_eq {one two : ReplayState H} (progress : Progress short long one two) :
    two.patchDecisions = one.patchDecisions := by
  cases progress
  rfl

theorem Progress.timeCalls_eq {one two : ReplayState H} (progress : Progress short long one two) : two.timeCalls = one.timeCalls := by
  cases progress
  rfl

theorem Progress.compensations_eq {one two : ReplayState H} (progress : Progress short long one two) :
    two.compensations = one.compensations := by
  cases progress
  rfl

theorem Progress.draws_eq {one two : ReplayState H} (progress : Progress short long one two) : two.draws = one.draws := by
  cases progress
  rfl

/-- Both states advance by a change that leaves what differs alone. -/
theorem Progress.shared {one two : ReplayState H} (progress : Progress short long one two)
    (change : ReplayState H → ReplayState H)
    (unseen : ∀ state matcher commands deliveries clockReads inFlightSteps,
      change { state with
        matcher := matcher
        newCommands := commands
        deliveries := deliveries
        clockReads := clockReads
        inFlightSteps := inFlightSteps } =
      { change state with
        matcher := matcher
        newCommands := commands
        deliveries := deliveries
        clockReads := clockReads
        inFlightSteps := inFlightSteps })
    (times : ∀ state, (change state).timeCalls = state.timeCalls)
    (fed : ∀ state, (change state).fedUpTo = state.fedUpTo) :
    Progress short long (change one) (change two) := by
  cases progress with
  | same matcher deliveries clockReads inFlightSteps recorded longer issued pending fedUpTo inFlight counted =>
    rw [unseen one matcher [] deliveries clockReads inFlightSteps]
    have own : change one = { change one with
        matcher := one.matcher
        newCommands := one.newCommands
        deliveries := one.deliveries
        clockReads := one.clockReads
        inFlightSteps := one.inFlightSteps } := unseen one _ _ _ _ _
    have matcherKept : (change one).matcher = one.matcher := by rw [own]
    have commandsKept : (change one).newCommands = one.newCommands := by rw [own]
    have deliveriesKept : (change one).deliveries = one.deliveries := by rw [own]
    have inFlightKept : (change one).inFlightSteps = one.inFlightSteps := by rw [own]
    refine .same (change one) matcher deliveries clockReads inFlightSteps ?_ longer ?_ ?_ ?_ ?_ ?_
    · rw [matcherKept, recorded]
    · rw [matcherKept, issued]
    · rw [deliveriesKept, pending]
    · rw [fed]
      exact fedUpTo
    · rw [inFlightKept]
      exact inFlight
    · rw [commandsKept, times]
      exact counted

/-- Both matchers see the next call. -/
theorem Progress.retake {one two : ReplayState H} (progress : Progress short long one two)
    (matcher matcher' : CommandMatcher) (recorded : matcher.recorded = one.matcher.recorded)
    (longer : matcher'.recorded = two.matcher.recorded) (issued : matcher'.issued = matcher.issued) :
    Progress short long { one with matcher := matcher } { two with matcher := matcher' } := by
  cases progress with
  | same before deliveries clockReads inFlightSteps recorded' longer' _ pending fed inFlight times =>
    exact .same { one with matcher := matcher } matcher' deliveries clockReads inFlightSteps
      (recorded.trans recorded') (longer.trans longer') issued pending fed inFlight times

/-- Both replays read the time once more. -/
theorem Progress.tick {one two : ReplayState H} (progress : Progress short long one two)
    (commands : List WorkflowCommand)
    (times : (recordedTimes (commands.map commandToEvent)).length =
      one.timeCalls + 1 - (recordedTimes short.history).length) :
    Progress short long { one with timeCalls := one.timeCalls + 1, newCommands := commands }
      { two with timeCalls := two.timeCalls + 1 } := by
  cases progress with
  | same matcher deliveries clockReads inFlightSteps recorded longer issued pending fed inFlight counted =>
    exact .same { one with timeCalls := one.timeCalls + 1, newCommands := commands } matcher deliveries
      clockReads inFlightSteps recorded longer issued pending fed inFlight times

theorem Progress.times {one two : ReplayState H} (progress : Progress short long one two) :
    (recordedTimes (one.newCommands.map commandToEvent)).length = one.timeCalls - (recordedTimes short.history).length := by
  cases progress
  assumption

/-- Reading the clock changes nothing that is compared. -/
theorem Progress.read {one two : ReplayState H} (progress : Progress short long one two)
    (reads reads' : Nat) :
    Progress short long { one with clockReads := reads } { two with clockReads := reads' } := by
  cases progress with
  | same matcher deliveries clockReads inFlightSteps recorded longer issued pending fed inFlight times =>
    exact .same { one with clockReads := reads } matcher deliveries reads' inFlightSteps recorded longer
      issued pending fed inFlight times

/-- The first replay waits for a step that the second history ends, or both wait for it. -/
theorem Progress.fly {one two : ReplayState H} (progress : Progress short long one two)
    (stepId : String) (steps : List String) :
    Progress short long { one with inFlightSteps := one.inFlightSteps ++ [stepId] }
      { two with inFlightSteps := steps } := by
  cases progress with
  | same matcher deliveries clockReads inFlightSteps recorded longer issued pending fed inFlight times =>
    exact .same { one with inFlightSteps := one.inFlightSteps ++ [stepId] } matcher deliveries clockReads
      steps recorded longer issued pending fed
      (fun none => absurd none (List.append_ne_nil_of_right_ne_nil _ (List.cons_ne_nil _ _))) times

/-- The first replay discovers a command that the second history holds. -/
theorem Progress.push {one two : ReplayState H} (progress : Progress short long one two)
    (command : WorkflowCommand) (timeless : recordedTime (commandToEvent command) = none) :
    Progress short long { one with newCommands := one.newCommands ++ [command] } two := by
  cases progress with
  | same matcher deliveries clockReads inFlightSteps recorded longer issued pending fed inFlight times =>
    refine .same { one with newCommands := one.newCommands ++ [command] } matcher deliveries clockReads
      inFlightSteps recorded longer issued pending fed inFlight ?_
    rw [List.map_append, recordedTimes_append, List.length_append, times]
    simp [recordedTimes, timeless]

theorem Progress.deliver {one two : ReplayState H} (progress : Progress short long one two)
    (delivery : Nat × PromiseId × Except JsValue JsValue) (inside : delivery.1 < short.history.length) :
    Progress short long { one with deliveries := one.deliveries ++ [delivery] }
      { two with deliveries := two.deliveries ++ [delivery] } := by
  cases progress with
  | same matcher deliveries clockReads inFlightSteps recorded longer issued pending fed inFlight times =>
    refine .same { one with deliveries := one.deliveries ++ [delivery] } matcher
      (deliveries ++ [delivery]) clockReads inFlightSteps recorded longer issued ?_ fed inFlight times
    simp [pending, inside]

theorem Progress.deliverLater {one two : ReplayState H} (progress : Progress short long one two)
    (delivery : Nat × PromiseId × Except JsValue JsValue) (outside : short.history.length ≤ delivery.1) :
    Progress short long one { two with deliveries := two.deliveries ++ [delivery] } := by
  cases progress with
  | same matcher deliveries clockReads inFlightSteps recorded longer issued pending fed inFlight times =>
    refine .same one matcher (deliveries ++ [delivery]) clockReads inFlightSteps recorded longer issued ?_
      fed inFlight times
    simp [pending, outside]

/-- Both replays make the same promise for a wait that the first history can end. -/
theorem alike_same (promise : Promise H (Operation H) JsValue (Resumption H) WaitTag)
    (within : promise.tag.Within short) : promise.Alike (prolonged H short long final) promise where
  owner := rfl
  held beyond := absurd beyond within.reached
  tag := ⟨rfl, within.requested, .inl ⟨rfl, within.reached⟩⟩
  frozen beyond := absurd beyond within.reached
  moving _ := rfl

theorem alloc_follows (lockstep : Lockstep (prolonged H short long final) first second)
    (promise : Promise H (Operation H) JsValue (Resumption H) WaitTag) (within : promise.tag.Within short) :
    Lockstep (prolonged H short long final) (returned (first.alloc promise)).1 (returned (second.alloc promise)).1 ∧
      (returned (first.alloc promise)).2 = (returned (second.alloc promise)).2 := by
  refine ⟨lockstep.alloc promise promise (alike_same promise within), ?_⟩
  simp only [returned, lockstep.alloc_id promise promise]

theorem completedAt_follows (lockstep : Lockstep (prolonged H short long final) first second)
    (place : Nat) (outcome : Except JsValue JsValue) (inside : place < short.history.length) :
    Lockstep (prolonged H short long final) (completedAt place outcome first).1 (completedAt place outcome second).1 ∧
      (completedAt place outcome first).2 = (completedAt place outcome second).2 := by
  have within : (⟨some place, false⟩ : WaitTag).Within short := by
    refine ⟨?_, nofun⟩
    rintro ⟨_, placed, beyond⟩
    cases placed
    omega
  unfold completedAt
  dsimp only
  rw [Progress.fedUpTo_eq lockstep.host]
  split
  · exact alloc_follows lockstep _ within
  · have allocated := lockstep.alloc ⟨.host, ⟨some place, false⟩, .pending []⟩ _ (alike_same _ within)
    refine ⟨allocated.withHost _ _ ?_, ?_⟩
    · rw [lockstep.alloc_id _ ⟨.host, ⟨some place, false⟩, .pending []⟩]
      exact allocated.host.deliver (place, _, outcome) inside
    · exact congrArg (fun target => Except.ok (JsValue.promise target)) lockstep.size

/-- The second history ends a wait that the first one leaves open. -/
theorem later_follows (lockstep : Lockstep (prolonged H short long final) first second)
    (place : Nat) (outcome : Except JsValue JsValue) (outside : short.history.length ≤ place) :
    Lockstep (prolonged H short long final) (neverSettles first).1 (completedAt place outcome second).1 ∧
      (neverSettles first).2 = (completedAt place outcome second).2 := by
  have unfed : ¬ (place : Int) ≤ second.host.fedUpTo := by
    have fed := Progress.fed lockstep.host
    omega
  have beyond : (⟨some place, false⟩ : WaitTag).Beyond short := ⟨place, rfl, outside⟩
  have alike : (⟨.host, default, .pending []⟩ :
      Promise H (Operation H) JsValue (Resumption H) WaitTag).Alike (prolonged H short long final)
      ⟨.host, ⟨some place, false⟩, .pending []⟩ :=
    { owner := rfl
      held := fun _ => rfl
      tag := ⟨rfl, nofun, .inr ⟨rfl, beyond⟩⟩
      frozen := fun _ => ⟨⟨[], rfl⟩, ⟨[], rfl⟩⟩
      moving := fun _ => rfl }
  have allocated := lockstep.alloc _ _ alike
  unfold completedAt
  dsimp only
  rw [if_neg unfed]
  refine ⟨allocated.withHost _ _ (allocated.host.deliverLater (place, second.promises.length, outcome) outside),
    ?_⟩
  exact congrArg (fun target => Except.ok (JsValue.promise target)) lockstep.size

end Waits

end DurableExecution.Workflow

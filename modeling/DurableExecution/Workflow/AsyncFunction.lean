import DurableExecution.Workflow.ReplayTrace

/-
This file follows the replay of a handler that is one asynchronous function: it calls the context, keeps the promises that the
calls answer with, and awaits them when it likes.
-/

namespace DurableExecution.Workflow

open EventLoop

section Functions

variable {H : Type}

/-- What one asynchronous function does until its next call or `await`. What it remembers is in its continuation; the heap is
what its query handlers see of it. -/
inductive AsyncFunction (H : Type) where
  | finish (completion : Except JsValue JsValue)
  | reads (next : H → AsyncFunction H)
  | writes (heap : H) (next : AsyncFunction H)
  | calls (call : ContextCall H) (compensation : WorkflowCode H) (next : Except JsValue JsValue → AsyncFunction H)
  | awaits (target : PromiseId) (next : Except JsValue JsValue → AsyncFunction H)

/-- The function settles `result`, the promise that its caller has. -/
def AsyncFunction.code (result : PromiseId) : AsyncFunction H → WorkflowCode H
  | .finish completion => .settle result completion (.finish (.ok (.promise result)))
  | .reads next => .read fun heap => (next heap).code result
  | .writes heap next => .write heap (next.code result)
  | .calls call compensation next => .call ⟨.workflow, call⟩ (fun _ => compensation) fun answer => (next answer).code result
  | .awaits target next => .react target (fun outcome => (next outcome).code result) (.finish (.ok (.promise result)))

def AsyncFunction.handler (heap : H) (script : JsValue → AsyncFunction H) : WorkflowHandler H where
  heap := heap
  body input := .promise fun result => (script input).code result

/-- A call that starts no branch of its own and joins none: not `select`, `all` or `allSettled`. -/
def ContextCall.single : ContextCall H → Bool
  | .select _ | .all _ _ | .allSettled _ _ => false
  | _ => true

/-- The function makes single calls only. -/
def AsyncFunction.Single : AsyncFunction H → Prop
  | .finish _ => True
  | .reads next => ∀ heap, (next heap).Single
  | .writes _ next => next.Single
  | .calls call _ next => call.single = true ∧ ∀ answer, (next answer).Single
  | .awaits _ next => ∀ outcome, (next outcome).Single

end Functions

section Calls

variable {H : Type} {replay : Replay} {before world after : ReplayWorld H} {completion : Except JsValue JsValue} {steps : Bool}

/-- A promise that nobody waits for. -/
def Unawaited (promise : ReplayPromise H) : Prop := ∀ reactions, promise.status = .pending reactions → reactions = []

/-- A single call adds promises that nobody waits for, and does not end the handler. A call other than `step` issues no step. -/
structure Adds (steps : Bool) (before after : ReplayWorld H) : Prop where
  promises : ∃ fresh, after.promises = before.promises ++ fresh ∧ ∀ promise ∈ fresh, Unawaited promise
  jobs : after.jobs = before.jobs
  handlerDone : after.host.handlerDone = before.host.handlerDone
  settled : after.host.settled = before.host.settled
  inFlight : before.host.inFlightSteps ⊆ after.host.inFlightSteps
  issued : ∀ stepId stepType input, .step stepId stepType input ∈ after.host.matcher.issued →
    steps = true ∨ .step stepId stepType input ∈ before.host.matcher.issued

theorem Adds.same (promises : after.promises = before.promises) (jobs : after.jobs = before.jobs)
    (handlerDone : after.host.handlerDone = before.host.handlerDone) (settled : after.host.settled = before.host.settled)
    (inFlight : before.host.inFlightSteps ⊆ after.host.inFlightSteps) (matcher : after.host.matcher = before.host.matcher) :
    Adds steps before after :=
  ⟨⟨[], by rw [promises, List.append_nil], fun _ listed => absurd listed List.not_mem_nil⟩, jobs, handlerDone, settled, inFlight,
    fun _ _ _ listed => .inr (by rw [← matcher]; exact listed)⟩

theorem Adds.alloc (adds : Adds steps before after) {promise : ReplayPromise H} (idle : Unawaited promise) :
    Adds steps before (after.alloc promise).2 := by
  obtain ⟨fresh, promises, unawaited⟩ := adds.promises
  refine ⟨⟨fresh ++ [promise], ?_, fun other listed => ?_⟩, adds.jobs, adds.handlerDone, adds.settled, adds.inFlight, adds.issued⟩
  · simp [World.alloc, promises]
  · rcases List.mem_append.mp listed with old | new
    · exact unawaited other old
    · rw [List.mem_singleton.mp new]
      exact idle

theorem Adds.trans (one : Adds steps before world) (two : Adds steps world after) : Adds steps before after := by
  obtain ⟨fresh, promises, unawaited⟩ := one.promises
  obtain ⟨more, promises', unawaited'⟩ := two.promises
  refine ⟨⟨fresh ++ more, by rw [promises', promises, List.append_assoc], fun promise listed => ?_⟩, two.jobs.trans one.jobs,
    two.handlerDone.trans one.handlerDone, two.settled.trans one.settled, List.Subset.trans one.inFlight two.inFlight,
    fun stepId stepType input listed => (two.issued stepId stepType input listed).elim .inl (one.issued stepId stepType input)⟩
  rcases List.mem_append.mp listed with old | new
  · exact unawaited promise old
  · exact unawaited' promise new

/-- A call that keeps what was matched until it answers. -/
structure Retains (steps : Bool) (before after : ReplayWorld H) : Prop where
  adds : Adds steps before after
  matched : before.host.matcher.Matched → after.host.matcher.Matched

/-- What a single call does to the world, and what it tells the code: a command that does not match is an integrity error. -/
structure Answered (steps : Bool) (before : ReplayWorld H) (answer : ReplayWorld H × Except JsValue JsValue) : Prop where
  adds : Adds steps before answer.1
  signals : before.host.matcher.Matched →
    answer.1.host.matcher.Matched ∨ ∃ error, answer.2 = .error error ∧ isIntegrityError error = true

theorem Retains.same (promises : after.promises = before.promises) (jobs : after.jobs = before.jobs)
    (handlerDone : after.host.handlerDone = before.host.handlerDone) (settled : after.host.settled = before.host.settled)
    (inFlight : before.host.inFlightSteps ⊆ after.host.inFlightSteps) (matcher : after.host.matcher = before.host.matcher) :
    Retains steps before after :=
  ⟨.same promises jobs handlerDone settled inFlight matcher, fun matched => by rw [matcher]; exact matched⟩

theorem Retains.answers (keeps : Retains steps before after) : Answered steps before (after, completion) :=
  ⟨keeps.adds, fun matched => .inl (keeps.matched matched)⟩

theorem Retains.trans (one : Retains steps before world) (two : Retains steps world after) : Retains steps before after :=
  ⟨one.adds.trans two.adds, fun matched => two.matched (one.matched matched)⟩

theorem Retains.returned (keeps : Retains steps before after) {promise : ReplayPromise H} (idle : Unawaited promise) :
    Answered steps before (returned (after.alloc promise)) :=
  ⟨keeps.adds.alloc idle, fun matched => .inl (keeps.matched matched)⟩

theorem unawaited_pending (owner : Owner) (tag : WaitTag) : Unawaited (⟨owner, tag, .pending []⟩ : ReplayPromise H) := by
  intro reactions same
  cases same
  rfl

theorem unawaited_settled (owner : Owner) (tag : WaitTag) (outcome : Except JsValue JsValue) :
    Unawaited (⟨owner, tag, .settled outcome⟩ : ReplayPromise H) := by
  rintro reactions ⟨⟩

theorem Retains.completedAt (keeps : Retains steps before after) (place : Nat) (outcome : Except JsValue JsValue) :
    Answered steps before (completedAt place outcome after) := by
  unfold Workflow.completedAt
  dsimp only
  split
  · exact keeps.returned (unawaited_settled _ _ _)
  · have allocated := keeps.returned (unawaited_pending .host ⟨some place, false⟩)
    exact ⟨⟨allocated.adds.promises, allocated.adds.jobs, allocated.adds.handlerDone, allocated.adds.settled, allocated.adds.inFlight,
      allocated.adds.issued⟩, allocated.signals⟩

theorem Retains.neverSettles (keeps : Retains steps before after) : Answered steps before (neverSettles after) :=
  keeps.returned (unawaited_pending _ _)

theorem Retains.rejectedWith (keeps : Retains steps before after) (error : JsValue) : Answered steps before (rejectedWith error after) :=
  keeps.returned (unawaited_settled _ _ _)

theorem Answered.map {T : Type} {answer : ReplayWorld H × Except JsValue JsValue} (answered : Answered steps before answer)
    (one : JsValue → T) (two : T → JsValue) : Answered steps before (answer.1, (answer.2.map one).map two) := by
  refine ⟨answered.adds, fun matched => (answered.signals matched).imp id ?_⟩
  rintro ⟨error, thrown, integrity⟩
  exact ⟨error, by rw [thrown]; rfl, integrity⟩

/-- The matcher keeps what was matched, or throws an integrity error. -/
theorem issue_signals (matcher : CommandMatcher) (shape : CommandShape) (whileCancelling : Bool) (matched : matcher.Matched) :
    (matcher.issue shape whileCancelling).1.Matched ∨
      ∃ error, (matcher.issue shape whileCancelling).2 = .error error ∧ isIntegrityError error = true := by
  unfold CommandMatcher.issue
  split
  · exact .inl matched
  · dsimp only
    have last : ∀ expected, matcher.expected = some expected → sameCommand expected shape = true →
        CommandMatcher.Matched { matcher with issued := matcher.issued ++ [shape] } := by
      intro expected found same position recorded issued known again
      rcases Nat.lt_trichotomy position matcher.issued.length with below | rfl | above
      · rw [List.getElem?_append_left below] at again
        exact matched position recorded issued known again
      · rw [List.getElem?_concat_length] at again
        cases again
        cases (show matcher.recorded[matcher.issued.length]? = some expected from found).symm.trans known
        exact same
      · rw [List.getElem?_eq_none (by rw [List.length_append]; exact above)] at again
        cases again
    cases found : matcher.expected with
    | none =>
      left
      intro position recorded issued known again
      rcases Nat.lt_or_ge position matcher.issued.length with below | beyond
      · rw [List.getElem?_append_left below] at again
        exact matched position recorded issued known again
      · have short := List.getElem?_eq_none_iff.mp (show matcher.recorded[matcher.issued.length]? = none from found)
        rw [List.getElem?_eq_none (Nat.le_trans short beyond)] at known
        cases known
    | some expected =>
      dsimp only
      split
      · next same => exact .inl (last expected found same)
      · exact .inr ⟨_, rfl, rfl⟩

theorem issue_listed {matcher : CommandMatcher} {shape other : CommandShape} {whileCancelling : Bool}
    (listed : other ∈ (matcher.issue shape whileCancelling).1.issued) : other = shape ∨ other ∈ matcher.issued := by
  unfold CommandMatcher.issue at listed
  have last : other ∈ matcher.issued ++ [shape] → other = shape ∨ other ∈ matcher.issued := fun listed =>
    (List.mem_append.mp listed).elim .inr fun own => .inl (List.mem_singleton.mp own)
  split at listed
  · exact .inr listed
  · cases found : matcher.expected with
    | none =>
      rw [found] at listed
      exact last listed
    | some expected =>
      rw [found] at listed
      dsimp only at listed
      split at listed <;> exact last listed

theorem issue_adds (shape : CommandShape) (whileCancelling : Bool)
    (kind : steps = true ∨ ∀ stepId stepType input, shape ≠ .step stepId stepType input)
    (world : ReplayWorld H) : Adds steps world (issue shape whileCancelling world).1 := by
  refine ⟨⟨[], (List.append_nil _).symm, fun _ listed => absurd listed List.not_mem_nil⟩, rfl, rfl, rfl, List.Subset.refl _,
    fun stepId stepType input listed => ?_⟩
  rcases issue_listed listed with same | old
  · exact kind.imp id fun other => absurd same.symm (other stepId stepType input)
  · exact .inr old

theorem Retains.issue_ok {shape : CommandShape} {whileCancelling recorded : Bool} (keeps : Retains steps before world)
    (kind : steps = true ∨ ∀ stepId stepType input, shape ≠ .step stepId stepType input)
    (answer : issue shape whileCancelling world = (after, .ok recorded)) : Retains steps before after := by
  have adds := issue_adds shape whileCancelling kind world
  obtain ⟨rfl, told⟩ := Prod.mk.inj answer
  refine keeps.trans ⟨adds, fun matched => ?_⟩
  rcases issue_signals world.host.matcher shape whileCancelling matched with fits | ⟨error, thrown, -⟩
  · exact fits
  · cases thrown.symm.trans told

theorem Retains.issue_error {shape : CommandShape} {whileCancelling : Bool} {mismatch : JsValue} (keeps : Retains steps before world)
    (kind : steps = true ∨ ∀ stepId stepType input, shape ≠ .step stepId stepType input)
    (answer : issue shape whileCancelling world = (after, .error mismatch)) : Answered steps before (after, .error mismatch) := by
  have adds := issue_adds shape whileCancelling kind world
  obtain ⟨rfl, told⟩ := Prod.mk.inj answer
  refine ⟨keeps.adds.trans adds, fun matched => ?_⟩
  rcases issue_signals world.host.matcher shape whileCancelling (keeps.matched matched) with fits | ⟨error, thrown, integrity⟩
  · exact .inl fits
  · exact .inr ⟨error, by rw [← Except.error.inj (thrown.symm.trans told)], integrity⟩

/-- The world changes in other places only. -/
theorem Retains.update (keeps : Retains steps before world) (change : ReplayState H → ReplayState H)
    (handlerDone : (change world.host).handlerDone = world.host.handlerDone) (settled : (change world.host).settled = world.host.settled)
    (inFlight : (change world.host).inFlightSteps = world.host.inFlightSteps) (matcher : (change world.host).matcher = world.host.matcher) :
    Retains steps before (update change world) :=
  keeps.trans (.same rfl rfl handlerDone settled (fun _ listed => inFlight.symm ▸ listed) matcher)

theorem Retains.refl (steps : Bool) (world : ReplayWorld H) : Retains steps world world := .same rfl rfl rfl rfl (List.Subset.refl _) rfl

theorem step_answered (cancelled : Bool) (stepType : String) (input : JsValue) (world : ReplayWorld H) :
    Answered true world (step replay cancelled stepType input world) := by
  have counted := (Retains.refl true world).update (fun state => { state with stepSequence := state.stepSequence + 1 }) rfl rfl rfl rfl
  unfold step
  dsimp only
  split
  · next answer => exact counted.issue_error (.inl rfl) answer
  · next recorded answer =>
      have issued := counted.issue_ok (.inl rfl) answer
      split
      · exact issued.completedAt _ _
      · split
        · exact (issued.update _ rfl rfl rfl rfl).rejectedWith _
        · apply Retains.neverSettles
          cases cancelled with
          | false => cases recorded <;> exact issued.trans (.same rfl rfl rfl rfl (List.Subset.refl _) rfl)
          | true => cases recorded <;> exact issued.trans (.same rfl rfl rfl rfl (List.subset_append_left _ _) rfl)

theorem sleep_answered (cancelled : Bool) (durationMs : JsNumber) (world : ReplayWorld H) :
    Answered steps world (sleep replay cancelled durationMs world) := by
  unfold sleep
  split
  · exact (Retains.refl steps world).rejectedWith _
  · have counted := (Retains.refl steps world).update (fun state => { state with timerSequence := state.timerSequence + 1 }) rfl rfl rfl rfl
    dsimp only
    split
    · next answer => exact counted.issue_error (.inr (by rintro _ _ _ ⟨⟩)) answer
    · next recorded answer =>
        have issued := counted.issue_ok (.inr (by rintro _ _ _ ⟨⟩)) answer
        split
        · exact issued.completedAt _ _
        · split
          · exact (issued.update _ rfl rfl rfl rfl).rejectedWith _
          · split
            · exact issued.neverSettles
            · split
              · apply Retains.answers
                exact issued.trans (.same rfl rfl rfl rfl (List.Subset.refl _) rfl)
              · apply Retains.neverSettles
                exact issued.trans (.same rfl rfl rfl rfl (List.Subset.refl _) rfl)

theorem waitForSignal_answered (cancelled : Bool) (signalName : String) (world : ReplayWorld H) :
    Answered steps world (waitForSignal replay cancelled signalName world) := by
  have counted : Retains steps world (Workflow.update (fun state => { state with
      signalSequences := Function.update state.signalSequences signalName (world.host.signalSequences signalName + 1) }) world) :=
    .same rfl rfl rfl rfl (List.Subset.refl _) rfl
  unfold waitForSignal
  dsimp only
  split
  · exact counted.completedAt _ _
  · split
    · exact (counted.update _ rfl rfl rfl rfl).rejectedWith _
    · exact counted.neverSettles

theorem startChild_answered (cancelled : Bool) (workflowType : String) (input : JsValue) (options : ChildOptions)
    (world : ReplayWorld H) (next : String × JsValue → JsValue) :
    Answered steps world ((startChild replay cancelled workflowType input options world).1,
      (startChild replay cancelled workflowType input options world).2.map next) := by
  have counted := (Retains.refl steps world).update (fun state => { state with childSequence := state.childSequence + 1 }) rfl rfl rfl rfl
  unfold startChild
  dsimp only
  split
  · exact counted.answers
  · split
    · next answer => exact counted.issue_error (.inr (by rintro _ _ _ ⟨⟩)) answer
    · next recorded answer =>
        have issued := counted.issue_ok (.inr (by rintro _ _ _ ⟨⟩)) answer
        split
        · apply Retains.answers
          exact issued.trans (.same rfl rfl rfl rfl (List.Subset.refl _) rfl)
        · refine Answered.map ?_ _ _
          split
          · apply Retains.completedAt
            cases recorded <;> exact issued.trans (.same rfl rfl rfl rfl (List.Subset.refl _) rfl)
          · split
            · apply Retains.returned _ (unawaited_settled _ _ _)
              cases recorded <;> exact issued.trans (.same rfl rfl rfl rfl (List.Subset.refl _) rfl)
            · apply Retains.neverSettles
              cases recorded <;> exact issued.trans (.same rfl rfl rfl rfl (List.Subset.refl _) rfl)

theorem decidePatch_answered (patchId : String) (world : ReplayWorld H) (next : Bool → JsValue) :
    Answered steps world ((decidePatch replay patchId world).1, (decidePatch replay patchId world).2.map next) := by
  have asked := (Retains.refl steps world).update (fun state => { state with
    consultedPatches := state.consultedPatches ++ [patchId] }) rfl rfl rfl rfl
  unfold decidePatch
  dsimp only
  split
  · exact asked.answers
  · split
    · split
      · next answer => exact asked.issue_error (.inr (by rintro _ _ _ ⟨⟩)) answer
      · next answer =>
          apply Retains.answers
          exact (asked.issue_ok (.inr (by rintro _ _ _ ⟨⟩)) answer).trans (.same rfl rfl rfl rfl (List.Subset.refl _) rfl)
    · split
      · apply Retains.answers
        exact asked.trans (.same rfl rfl rfl rfl (List.Subset.refl _) rfl)
      · split
        · next answer => exact asked.issue_error (.inr (by rintro _ _ _ ⟨⟩)) answer
        · next answer =>
            apply Retains.answers
            exact (asked.issue_ok (.inr (by rintro _ _ _ ⟨⟩)) answer).trans (.same rfl rfl rfl rfl (List.Subset.refl _) rfl)

theorem now_answered (world : ReplayWorld H) : Answered steps world (now replay world) := by
  unfold now
  dsimp only
  split
  · exact Retains.answers (.same rfl rfl rfl rfl (List.Subset.refl _) rfl)
  · split <;> exact Retains.answers (.same rfl rfl rfl rfl (List.Subset.refl _) rfl)

def ContextCall.isStep : ContextCall H → Bool
  | .step _ _ => true
  | _ => false

/-- A single call adds promises that nobody waits for, and tells the code of a mismatch. -/
theorem ContextCall.answered (replay : Replay) {call : ContextCall H} (single : call.single = true) (context : ContextKind)
    (callbacks : Nat → WorkflowCode H) (running : Nat → ReplayEffect H) (world : ReplayWorld H) :
    Answered call.isStep world (contextCall replay ⟨context, call⟩ callbacks running world) := by
  cases call with
  | step stepType input => exact step_answered _ _ _ _
  | sleep durationMs => exact sleep_answered _ _ _
  | waitForSignal signalName => exact waitForSignal_answered _ _ _
  | select | all | allSettled => cases single
  | setQueryHandler | onCancel | random | uuid => exact Retains.answers (.same rfl rfl rfl rfl (List.Subset.refl _) rfl)
  | startChild workflowType input options => exact startChild_answered _ _ _ _ _ _
  | executeChild workflowType input options => exact startChild_answered _ _ _ _ _ _
  | continueAsNew input =>
    change Answered false world (Workflow.continueAsNew replay input world)
    unfold Workflow.continueAsNew
    split
    · exact (Retains.refl _ world).rejectedWith _
    · apply Retains.neverSettles
      exact .same rfl rfl rfl rfl (List.Subset.refl _) rfl
  | patched | deprecatePatch => exact decidePatch_answered _ _ _
  | now => exact now_answered _

end Calls

section Positions

variable {H : Type} {replay : Replay} {world after final : ReplayWorld H} {started : Bool}
  {wait : Option (PromiseId × (Except JsValue JsValue → AsyncFunction H))} {next : Except JsValue JsValue → AsyncFunction H}
  {target : PromiseId} {outcome : Except JsValue JsValue} {script : AsyncFunction H} {holds : AsyncFunction H → ReplayWorld H → Prop}

/-- Who waits for a promise: the engine for the handler's, and the function for the one it awaits. -/
def reactionsAt (started : Bool) (wait : Option (PromiseId × (Except JsValue JsValue → AsyncFunction H))) (target : PromiseId) :
    List (Reaction H (Operation H) JsValue (Resumption H)) :=
  (if started = true ∧ target = 0 then [.host .handlerSettled] else []) ++
    match wait with
    | some (awaited, next) => if awaited = target then [.code fun outcome => (next outcome).code 0] else []
    | none => []

/-- A function that awaits its own promise waits forever, and nothing depends on who else waits for that. -/
def Apart (wait : Option (PromiseId × (Except JsValue JsValue → AsyncFunction H))) (target : PromiseId) : Prop :=
  target = 0 → ∀ next, wait ≠ some (0, next)

/-- The promises while the function has not ended. -/
structure Table (started : Bool) (wait : Option (PromiseId × (Except JsValue JsValue → AsyncFunction H))) (world : ReplayWorld H) :
    Prop where
  result : ∃ promise, world.promises[0]? = some promise ∧ promise.owner = .code ∧ promise.Pending
  reactions : ∀ (target : PromiseId) (promise : ReplayPromise H), world.promises[target]? = some promise → Apart wait target →
    ∀ reactions, promise.status = .pending reactions → reactions = reactionsAt started wait target

theorem apart_none (target : PromiseId) : Apart (none : Option (PromiseId × (Except JsValue JsValue → AsyncFunction H))) target := by
  rintro - next ⟨⟩

theorem apart_other (wait : Option (PromiseId × (Except JsValue JsValue → AsyncFunction H))) (other : target ≠ 0) : Apart wait target :=
  fun same => absurd same other

/-- Nobody waits for any promise. -/
def Unheard (world : ReplayWorld H) : Prop := ∀ (target : PromiseId) (promise : ReplayPromise H),
  world.promises[target]? = some promise → Unawaited promise

/-- A promise of the context that no event of the history settles. -/
def Never (world : ReplayWorld H) (target : PromiseId) : Prop :=
  ∃ promise, world.promises[target]? = some promise ∧ promise.owner = .host ∧ promise.tag.completionPosition = none ∧ promise.Pending

/-- The promise has settled so. -/
def Told (world : ReplayWorld H) (target : PromiseId) (outcome : Except JsValue JsValue) : Prop :=
  ∃ promise, world.promises[target]? = some promise ∧ promise.status = .settled outcome

theorem Told.unique {other : Except JsValue JsValue} (told : Told world target outcome) (again : Told world target other) :
    outcome = other := by
  obtain ⟨promise, found, status⟩ := told
  obtain ⟨promise', found', status'⟩ := again
  cases found.symm.trans found'
  cases status.symm.trans status'
  rfl

theorem Never.untold (never : Never world target) (told : Told world target outcome) : False := by
  obtain ⟨promise, found, -, -, reactions, pending⟩ := never
  obtain ⟨promise', found', status⟩ := told
  cases found.symm.trans found'
  cases status.symm.trans pending

/-- A later world of the same replay. Settled promises stay so, and each delivery settles the promise that it is owed to. -/
structure Leads (world final : ReplayWorld H) : Prop where
  told : ∀ target outcome, Told world target outcome → Told final target outcome
  never : ∀ target, Never world target → Never final target
  ledger : world.host.ledger.Extends final.host.ledger
  due : ∀ delivery ∈ world.host.deliveries, Told final delivery.2.1 delivery.2.2

/-- The part of a replay that only the calls of the code change. -/
def ReplayState.called (state : ReplayState H) : ReplayState H :=
  { state with deliveries := [], fedUpTo := -1, settled := none, handlerDone := false }

/-- What a replay leaves as it is while the function makes no call. -/
structure Resting (before after : ReplayWorld H) : Prop where
  heap : after.heap = before.heap
  length : after.promises.length = before.promises.length
  called : after.host.called = before.host.called
  never : ∀ target, Never before target → Never after target
  leads : ∀ final, Leads after final → Leads before final

/-- A call of the function. -/
def functionCall (replay : Replay) (call : ContextCall H) (compensation : WorkflowCode H) (world : ReplayWorld H) :
    ReplayWorld H × Except JsValue JsValue :=
  contextCall replay ⟨.workflow, call⟩ (fun _ => compensation) (fun _ => EventLoop.run (replayHost H replay) compensation) world

theorem functionCall_answered (replay : Replay) {call : ContextCall H} (single : call.single = true) (compensation : WorkflowCode H)
    (world : ReplayWorld H) : Answered call.isStep world (functionCall replay call compensation world) :=
  ContextCall.answered replay single .workflow _ _ world

/-- A property of the function's rest and the world that each of its steps keeps. -/
structure Carried (replay : Replay) (holds : AsyncFunction H → ReplayWorld H → Prop) : Prop where
  rests : ∀ {script before after}, Resting before after → holds script before → holds script after
  reads : ∀ {next world}, holds (.reads next) world → holds (next world.heap) world
  writes : ∀ {heap next world}, holds (.writes heap next) world → holds next { world with heap := heap }
  calls : ∀ {call compensation next} {world : ReplayWorld H}, holds (.calls call compensation next) world → call.single = true →
    holds (next (functionCall replay call compensation world).2) (functionCall replay call compensation world).1
  resumes : ∀ {target next world outcome}, holds (.awaits target next) world → target ≠ 0 → Told world target outcome →
    holds (next outcome) world

/-- Where the function stands between two of its stretches. -/
inductive Position (holds : AsyncFunction H → ReplayWorld H → Prop) (started : Bool) (world : ReplayWorld H) : Prop where
  | goes (script : AsyncFunction H) (single : script.Single) (held : holds script world) (table : Table started none world)
      (handlerDone : world.host.handlerDone = false) (settled : world.host.settled = none) (jobs : world.jobs = [.code (script.code 0)])
  | waits (target : PromiseId) (next : Except JsValue JsValue → AsyncFunction H) (single : ∀ outcome, (next outcome).Single)
      (held : holds (.awaits target next) world) (open' : ∀ outcome, ¬ Told world target outcome)
      (table : Table started (some (target, next)) world) (handlerDone : world.host.handlerDone = false)
      (settled : world.host.settled = none) (jobs : world.jobs = [])
  | ends (completion : Except JsValue JsValue) (before : ReplayWorld H) (held : holds (.finish completion) before)
      (matcher : world.host.matcher = before.host.matcher)
      (leads : ∀ final, Leads world final → Leads before final) (unheard : Unheard world)
      (result : ∃ promise, world.promises[0]? = some promise ∧ promise.status = .settled completion)
      (jobs : world.jobs = if started = true then [.host .handlerSettled completion] else [])
  | ended (completion : Except JsValue JsValue) (before : ReplayWorld H) (held : holds (.finish completion) before)
      (matcher : world.host.matcher = before.host.matcher)
      (leads : ∀ final, Leads world final → Leads before final) (unheard : Unheard world)
      (settled : world.host.settled = some (Settled.of completion)) (begun : started = true) (jobs : world.jobs = [])

theorem Resting.matcher (rests : Resting before after) : after.host.matcher = before.host.matcher :=
  show after.host.called.matcher = _ by rw [rests.called]; rfl

theorem Resting.inFlight (rests : Resting before after) : after.host.inFlightSteps = before.host.inFlightSteps :=
  show after.host.called.inFlightSteps = _ by rw [rests.called]; rfl

theorem Grows.told (grows : Grows before after) (told : Told before target outcome) : Told after target outcome := by
  obtain ⟨promise, found, status⟩ := told
  obtain ⟨new, found', moves⟩ := grows.promises target promise found
  exact ⟨new, found', moves.settled outcome status⟩

theorem Grows.never (grows : Grows before after) (never : Never before target) : Never after target := by
  obtain ⟨promise, found, own, unplaced, reactions, status⟩ := never
  obtain ⟨new, found', moves⟩ := grows.promises target promise found
  refine ⟨new, found', moves.owner.trans own, by rw [moves.tag]; exact unplaced, ?_⟩
  rcases moves.pending reactions status with ⟨more, pending⟩ | ⟨placed, -⟩
  · exact ⟨_, pending⟩
  · exact absurd ⟨own, unplaced⟩ placed

/-- A world that another one grows from leads where that one does. -/
theorem Grows.leads (grows : Grows before after) (ledger : before.host.ledger.Extends after.host.ledger)
    (due : ∀ delivery ∈ before.host.deliveries, delivery ∈ after.host.deliveries ∨ Told after delivery.2.1 delivery.2.2)
    (leads : Leads after final) : Leads before final where
  told target outcome told := leads.told target outcome (grows.told told)
  never target never := leads.never target (grows.never never)
  ledger := ledger.trans leads.ledger
  due delivery listed := (due delivery listed).elim (leads.due delivery) (leads.told _ _)

theorem Leads.of_same (promises : after.promises = before.promises) (ledger : after.host.ledger = before.host.ledger)
    (leads : Leads after final) : Leads before final where
  told target outcome told := leads.told target outcome (by unfold Told; rw [promises]; exact told)
  never target never := leads.never target (by unfold Never; rw [promises]; exact never)
  ledger := by rw [← ledger]; exact leads.ledger
  due delivery listed := by
    have same : after.host.deliveries = before.host.deliveries := congrArg Ledger.deliveries ledger
    exact leads.due delivery (by rw [same]; exact listed)

theorem Resting.of_same (heap : after.heap = before.heap) (promises : after.promises = before.promises)
    (called : after.host.called = before.host.called) (ledger : after.host.ledger = before.host.ledger) : Resting before after :=
  ⟨heap, by rw [promises], called, fun target never => by unfold Never; rw [promises]; exact never, fun _ => .of_same promises ledger⟩

theorem Resting.refl (world : ReplayWorld H) : Resting world world := .of_same rfl rfl rfl rfl

theorem Resting.react (target : PromiseId) (reaction : Reaction H (Operation H) JsValue (Resumption H)) (world : ReplayWorld H) :
    Resting world (world.react target reaction) := by
  have grows := (Grows.refl world).react target reaction
  have same := World.react_host target reaction world
  refine ⟨?_, ?_, by rw [same], fun _ => grows.never, fun _ => grows.leads (by rw [same]; exact .refl _) fun _ listed => ?_⟩
  · unfold World.react
    split
    · split <;> rfl
    · rfl
  · unfold World.react
    split
    · split
      · exact List.length_set
      · rfl
    · rfl
  · rw [same]
    exact .inl listed

/-- An event of the history settles a promise that has a place in it. -/
theorem Resting.settle {place : Nat} (placed : (world.tagOf target).bind WaitTag.completionPosition = some place)
    (outcome : Except JsValue JsValue) : Resting world (world.settle .host target outcome) := by
  have grows := (Grows.refl world).settle .host target outcome fun _ promise held unplaced => by
    rw [World.tagOf, held] at placed
    cases unplaced.symm.trans placed
  have same := World.settle_host .host target outcome world
  refine ⟨?_, ?_, by rw [same], fun _ => grows.never, fun _ => grows.leads (by rw [same]; exact .refl _) fun _ listed => ?_⟩
  · unfold World.settle
    split
    · split
      · split <;> rfl
      · rfl
    · rfl
  · unfold World.settle
    split
    · split
      · split
        · exact List.length_set
        · rfl
      · rfl
    · rfl
  · rw [same]
    exact .inl listed

/-- After a call the function is the only one that goes on. -/
theorem Table.adds (table : Table started none world) {steps : Bool} (adds : Adds steps world after) : Table started none after := by
  obtain ⟨fresh, promises, unawaited⟩ := adds.promises
  obtain ⟨first, held, own, pending⟩ := table.result
  have inside : 0 < world.promises.length := (List.getElem?_eq_some_iff.mp held).1
  refine ⟨⟨first, by rw [promises, List.getElem?_append_left inside]; exact held, own, pending⟩,
    fun target promise found apart reactions status => ?_⟩
  rw [promises] at found
  rcases Nat.lt_or_ge target world.promises.length with old | new
  · rw [List.getElem?_append_left old] at found
    exact table.reactions target promise found apart reactions status
  · rw [List.getElem?_append_right new] at found
    rw [unawaited promise (List.mem_of_getElem? found) reactions status]
    simp [reactionsAt, Nat.ne_of_gt (Nat.lt_of_lt_of_le inside new)]

/-- The function ends. -/
theorem Position.finish {completion : Except JsValue JsValue} (held : holds (.finish completion) world) (table : Table started none world)
    (jobs : world.jobs = []) : Position holds started (world.settle .code 0 completion) := by
  have grows := (Grows.refl world).settle .code 0 completion fun same => nomatch same
  have leads : ∀ final, Leads (world.settle .code 0 completion) final → Leads world final := fun _ =>
    grows.leads (by rw [World.settle_host]; exact .refl _) fun _ listed => .inl (by rw [World.settle_host]; exact listed)
  obtain ⟨promise, found, own, reactions, status⟩ := table.result
  have waiting := table.reactions 0 promise found (apart_none 0) reactions status
  have inside : 0 < world.promises.length := (List.getElem?_eq_some_iff.mp found).1
  have settled : world.settle .code 0 completion = { world with
      promises := world.promises.set 0 (promise.withStatus (.settled completion))
      jobs := world.jobs ++ reactions.map (Reaction.job completion) } := by
    rw [World.settle, found]
    dsimp only
    rw [status]
    exact if_pos own
  rw [settled] at leads ⊢
  refine .ends completion world held rfl leads ?_ ⟨_, List.getElem?_set_self inside, rfl⟩ ?_
  · intro target other listed others pending
    by_cases first : target = 0
    · subst first
      rw [List.getElem?_set_self inside] at listed
      cases listed
      cases pending
    · rw [List.getElem?_set_ne (Ne.symm first)] at listed
      rw [table.reactions target other listed (apart_none _) others pending]
      simp [reactionsAt, first]
  · rw [jobs, waiting]
    cases started <;> rfl

/-- The function awaits a promise: it goes on with the next microtask when that is settled. -/
theorem Position.await (carried : Carried replay holds) (single : ∀ outcome, (next outcome).Single)
    (held : holds (.awaits target next) world) (table : Table started none world) (handlerDone : world.host.handlerDone = false)
    (settled : world.host.settled = none) (jobs : world.jobs = []) :
    Position holds started (world.react target (.code fun outcome => (next outcome).code 0)) := by
  have rests := Resting.react target (.code fun outcome => (next outcome).code 0) world
  revert rests
  unfold World.react
  split
  · next promise found =>
      split
      · next reactions status =>
          intro rests
          refine .waits target next single (carried.rests rests held) ?_ ?_ handlerDone settled jobs
          · rintro outcome ⟨waiting, listed, ended⟩
            rw [List.getElem?_set_self (List.getElem?_eq_some_iff.mp found).1] at listed
            cases listed
            cases ended
          obtain ⟨first, listed, own, others, pending⟩ := table.result
          have inside := (List.getElem?_eq_some_iff.mp found).1
          constructor
          · by_cases result : target = 0
            · subst result
              cases found.symm.trans listed
              exact ⟨_, List.getElem?_set_self inside, own, _, rfl⟩
            · exact ⟨first, (List.getElem?_set_ne result).trans listed, own, others, pending⟩
          · intro place waiting listed' apart reactions' status'
            by_cases same : target = place
            · subst same
              rw [List.getElem?_set_self inside] at listed'
              cases listed'
              cases status'
              have other : target ≠ 0 := fun same => apart same next (by rw [same])
              rw [table.reactions target promise found (apart_none _) reactions status]
              simp [reactionsAt, other]
            · rw [List.getElem?_set_ne same] at listed'
              rw [table.reactions place waiting listed' (apart_none _) reactions' status']
              simp [reactionsAt, same]
      · next outcome status =>
          intro rests
          have other : target ≠ 0 := by
            rintro rfl
            obtain ⟨first, listed, -, reactions, pending⟩ := table.result
            cases found.symm.trans listed
            cases status.symm.trans pending
          refine .goes (next outcome) (single outcome)
            (carried.rests rests (carried.resumes held other ⟨promise, found, status⟩)) ⟨table.result, table.reactions⟩
            handlerDone settled ?_
          rw [jobs]
          rfl
  · next absent =>
      intro rests
      refine .waits target next single (carried.rests rests held) ?_
        ⟨table.result, fun place promise found _ reactions status => ?_⟩ handlerDone settled jobs
      · rintro outcome ⟨promise, found, -⟩
        cases absent.symm.trans found
      have apart : target ≠ place := by
        rintro rfl
        cases absent.symm.trans found
      rw [table.reactions place promise found (apart_none _) reactions status]
      simp [reactionsAt, apart]

/-- The code of the function returns its promise, whatever the calls answer. -/
theorem AsyncFunction.returns (replay : Replay) (script : AsyncFunction H) (world : ReplayWorld H) :
    (EventLoop.run (replayHost H replay) (script.code 0) world).2 = .ok (.promise 0) := by
  induction script generalizing world with
  | finish completion => rfl
  | reads next ih => exact ih _ _
  | writes heap next ih => exact ih _
  | calls call compensation next ih => exact ih _ _
  | awaits target next ih => rfl

/-- A stretch of the function, by induction on its code. -/
theorem Carried.run (carried : Carried replay holds) (single : script.Single) (held : holds script world) (table : Table started none world)
    (handlerDone : world.host.handlerDone = false) (settled : world.host.settled = none) (jobs : world.jobs = []) :
    Position holds started (EventLoop.run (replayHost H replay) (script.code 0) world).1 := by
  induction script generalizing world with
  | finish completion => exact .finish held table jobs
  | reads next ih => exact ih world.heap (single _) (carried.reads held) table handlerDone settled jobs
  | writes heap next ih => exact ih single (carried.writes held) ⟨table.result, table.reactions⟩ handlerDone settled jobs
  | calls call compensation next ih =>
    have answered := functionCall_answered replay single.1 compensation world
    exact ih _ (single.2 _) (carried.calls held single.1) (table.adds answered.adds) (answered.adds.handlerDone.trans handlerDone)
      (answered.adds.settled.trans settled) (answered.adds.jobs.trans jobs)
  | awaits target next ih => exact .await carried single held table handlerDone settled jobs

/-- One microtask of the replay. -/
theorem Position.perform (carried : Carried replay holds) (position : Position holds true world) {job : ReplayJob H}
    {jobs : List (ReplayJob H)} (queued : world.jobs = job :: jobs) :
    Position holds true (EventLoop.perform (replayHost H replay) job { world with jobs := jobs }) := by
  cases position with
  | goes script single held table handlerDone settled own =>
    obtain ⟨rfl, rfl⟩ := List.cons.inj (queued.symm.trans own)
    have popped : Resting world { world with jobs := [] } := .of_same rfl rfl rfl rfl
    have emptied : Table true none { world with jobs := [] } := ⟨table.result, table.reactions⟩
    exact carried.run single (carried.rests popped held) emptied handlerDone settled rfl
  | waits target next single held open' table handlerDone settled own => cases queued.symm.trans own
  | ends completion before held matcher leads unheard result own =>
    obtain ⟨rfl, rfl⟩ := List.cons.inj (queued.symm.trans own)
    cases completion with
    | ok value =>
      exact .ended (.ok value) before held matcher (fun final later => leads final (.of_same (by rfl) (by rfl) later)) unheard
        rfl rfl rfl
    | error reason =>
      exact .ended (.error reason) before held matcher (fun final later => leads final (.of_same (by rfl) (by rfl) later)) unheard
        rfl rfl rfl
  | ended completion before held matcher leads unheard settled begun own => cases queued.symm.trans own

/-- A promise that is not pending, or that the context does not own, is left alone. -/
theorem settle_host_cases (target : PromiseId) (outcome : Except JsValue JsValue) (world : ReplayWorld H) :
    world.settle .host target outcome = world ∨ ∃ promise reactions, world.promises[target]? = some promise ∧ promise.owner = .host ∧
      promise.status = .pending reactions ∧ world.settle .host target outcome = { world with
        promises := world.promises.set target (promise.withStatus (.settled outcome))
        jobs := world.jobs ++ reactions.map (Reaction.job outcome) } := by
  unfold World.settle
  split
  · next promise found =>
      split
      · next reactions status =>
          split
          · next own => exact .inr ⟨promise, reactions, found, own, status, rfl⟩
          · exact .inl rfl
      · exact .inl rfl
  · exact .inl rfl

theorem Table.ours (table : Table started wait world) {promise : ReplayPromise H} (found : world.promises[target]? = some promise)
    (own : promise.owner = .host) : target ≠ 0 := by
  rintro rfl
  obtain ⟨first, listed, owned, -⟩ := table.result
  cases found.symm.trans listed
  cases owned.symm.trans own

/-- Where one promise of the context is settled, the others stay as they are. -/
theorem Table.settled (table : Table started wait world) {promise : ReplayPromise H} (found : world.promises[target]? = some promise)
    (own : promise.owner = .host) (jobs : List (ReplayJob H)) {others : Option (PromiseId × (Except JsValue JsValue → AsyncFunction H))}
    (same : ∀ other, other ≠ target → (Apart others other → Apart wait other) ∧
      reactionsAt started wait other = reactionsAt started others other) :
    Table started others { world with promises := world.promises.set target (promise.withStatus (.settled outcome)), jobs := jobs } := by
  obtain ⟨first, listed, owned, pending⟩ := table.result
  refine ⟨⟨first, (List.getElem?_set_ne (table.ours found own)).trans listed, owned, pending⟩,
    fun other waiting held apart more status => ?_⟩
  by_cases equal : target = other
  · subst equal
    rw [List.getElem?_set_self (List.getElem?_eq_some_iff.mp found).1] at held
    cases held
    cases status
  · rw [List.getElem?_set_ne equal] at held
    have kept := same other (Ne.symm equal)
    rw [table.reactions other waiting held (kept.1 apart) more status, kept.2]

theorem Unheard.settled (unheard : Unheard world) {promise : ReplayPromise H} (found : world.promises[target]? = some promise)
    (jobs : List (ReplayJob H)) :
    Unheard { world with promises := world.promises.set target (promise.withStatus (.settled outcome)), jobs := jobs } := by
  intro other waiting held reactions status
  by_cases equal : target = other
  · subst equal
    rw [List.getElem?_set_self (List.getElem?_eq_some_iff.mp found).1] at held
    cases held
    cases status
  · rw [List.getElem?_set_ne equal] at held
    exact unheard other waiting held reactions status

/-- An event of the history settles a promise; the function goes on if it awaits that one. -/
theorem Position.settle (carried : Carried replay holds) (position : Position holds true world) {place : Nat}
    (placed : (world.tagOf target).bind WaitTag.completionPosition = some place) (outcome : Except JsValue JsValue) :
    Position holds true (world.settle .host target outcome) := by
  have rests := Resting.settle placed outcome
  rcases settle_host_cases target outcome world with same | ⟨promise, reactions, found, own, status, same⟩
  · rw [same]
    exact position
  · rw [same] at rests ⊢
    cases position with
    | goes script single held table handlerDone settled jobs =>
      refine .goes script single (carried.rests rests held) (table.settled found own _ fun _ _ => ⟨id, rfl⟩) handlerDone settled ?_
      rw [table.reactions target promise found (apart_none _) reactions status, jobs]
      simp [reactionsAt, table.ours found own]
    | waits awaited next single held open' table handlerDone settled jobs =>
      have ours := table.ours found own
      by_cases equal : awaited = target
      · subst equal
        have resumed := carried.resumes (carried.rests rests held) ours
          ⟨_, List.getElem?_set_self (List.getElem?_eq_some_iff.mp found).1, rfl⟩
        refine .goes (next outcome) (single outcome) resumed (table.settled found own _ fun other differs => ?_) handlerDone settled ?_
        · refine ⟨fun _ zero next same => ?_, by simp [reactionsAt, Ne.symm differs]⟩
          exact ours (Prod.mk.inj (Option.some.inj same)).1
        · rw [table.reactions awaited promise found (apart_other _ ours) reactions status, jobs]
          simp [reactionsAt, ours, Reaction.job]
      · refine .waits awaited next single (carried.rests rests held) (fun other => ?_)
          (table.settled found own _ fun _ _ => ⟨id, rfl⟩) handlerDone settled ?_
        · rintro ⟨waiting, listed, ended⟩
          rw [List.getElem?_set_ne (Ne.symm equal)] at listed
          exact open' other ⟨waiting, listed, ended⟩
        rw [table.reactions target promise found (apart_other _ ours) reactions status, jobs]
        simp [reactionsAt, ours, equal]
    | ends completion before held matcher leads unheard result jobs =>
      have leads' := fun final later => leads final (rests.leads final later)
      obtain ⟨first, listed, ended⟩ := result
      have other : target ≠ 0 := by
        rintro rfl
        cases found.symm.trans listed
        cases ended.symm.trans status
      refine .ends completion before held matcher leads' (unheard.settled found _)
        ⟨first, (List.getElem?_set_ne other).trans listed, ended⟩ ?_
      rw [unheard target promise found reactions status]
      exact (List.append_nil _).trans jobs
    | ended completion before held matcher leads unheard settled begun jobs =>
      refine .ended completion before held matcher (fun final later => leads final (rests.leads final later)) (unheard.settled found _)
        settled begun ?_
      rw [unheard target promise found reactions status]
      exact (List.append_nil _).trans jobs

/-- What is due at one place is settled, by induction on it. -/
theorem Position.settles (carried : Carried replay holds) (due : List (Nat × PromiseId × Except JsValue JsValue))
    (placed : ∀ delivery ∈ due, (world.tagOf delivery.2.1).bind WaitTag.completionPosition = some delivery.1)
    (position : Position holds true world) :
    Position holds true (due.foldl (fun world delivery => world.settle .host delivery.2.1 delivery.2.2) world) := by
  induction due generalizing world with
  | nil => exact position
  | cons delivery rest ih =>
    rw [List.foldl_cons]
    refine ih (fun other listed => ?_) (position.settle carried (placed delivery List.mem_cons_self) _)
    rw [World.settle_tagOf]
    exact placed other (List.mem_cons_of_mem _ listed)

/-- The feed goes on. What was due at the place has settled the promises that it was owed to. -/
theorem Resting.feed (next : Nat)
    (told : ∀ delivery ∈ world.host.deliveries, delivery.1 = next → Told world delivery.2.1 delivery.2.2) :
    Resting world (update (fun state => { state with
      fedUpTo := next
      deliveries := state.deliveries.filter fun delivery => delivery.1 != next }) world) := by
  refine ⟨rfl, rfl, rfl, fun _ => id, fun final leads => ⟨leads.told, leads.never, ?_, fun delivery listed => ?_⟩⟩
  · exact { leads.ledger with }
  · by_cases here : delivery.1 = next
    · exact leads.told _ _ (told delivery listed here)
    · exact leads.due delivery (List.mem_filter.mpr ⟨listed, by simpa using here⟩)

/-- The place that is fed next settles its promises. -/
theorem Position.release (carried : Carried replay holds) (position : Position holds true world) (tagged : Tagged world) (owed : Owed world)
    (next : Nat) : Position holds true (release next world) := by
  unfold Workflow.release
  dsimp only
  rw [settleAll_update]
  have settled := position.settles carried (world.host.deliveries.filter fun delivery => delivery.1 == next)
    fun delivery listed => tagged delivery (List.mem_of_mem_filter listed)
  have told : ∀ delivery ∈ world.host.deliveries, delivery.1 = next →
      Told ((world.host.deliveries.filter fun delivery => delivery.1 == next).foldl
        (fun world delivery => world.settle .host delivery.2.1 delivery.2.2) world) delivery.2.1 delivery.2.2 := by
    intro delivery listed here
    obtain ⟨promise, found, own, pending⟩ := owed.pending delivery listed
    have due : delivery ∈ world.host.deliveries.filter fun delivery => delivery.1 == next := by simp [listed, here]
    exact settleAll_outcome _ (owed.apart.sublist (List.filter_sublist.map _)) due found own pending
  have host := settleAll_host (world.host.deliveries.filter fun delivery => delivery.1 == next) world
  revert settled told host
  generalize (world.host.deliveries.filter fun delivery => delivery.1 == next).foldl
    (fun world delivery => world.settle .host delivery.2.1 delivery.2.2) world = after
  intro settled told host
  have rests := @Resting.feed H after next (by rw [host]; exact told)
  cases settled with
  | goes script single held table handlerDone settled jobs =>
    exact .goes script single (carried.rests rests held) ⟨table.result, table.reactions⟩ handlerDone settled jobs
  | waits awaited next' single held open' table handlerDone settled jobs =>
    exact .waits awaited next' single (carried.rests rests held) open' ⟨table.result, table.reactions⟩ handlerDone settled jobs
  | ends completion before held matcher leads unheard result jobs =>
    exact .ends completion before held matcher (fun final later => leads final (rests.leads final later)) unheard result jobs
  | ended completion before held matcher leads unheard settled begun jobs =>
    exact .ended completion before held matcher (fun final later => leads final (rests.leads final later)) unheard settled begun jobs

/-- The engine waits for the handler's promise as well. -/
theorem Table.awaited (table : Table false wait world) {promise : ReplayPromise H}
    {reactions : List (Reaction H (Operation H) JsValue (Resumption H))}
    (found : world.promises[0]? = some promise) (status : promise.status = .pending reactions) :
    Table true wait { world with
      promises := world.promises.set 0 (promise.withStatus (.pending (reactions ++ [.host .handlerSettled]))) } := by
  have inside := (List.getElem?_eq_some_iff.mp found).1
  obtain ⟨first, listed, own, -⟩ := table.result
  cases found.symm.trans listed
  refine ⟨⟨_, List.getElem?_set_self inside, own, _, rfl⟩, fun place waiting held apart more pending => ?_⟩
  by_cases first : place = 0
  · subst first
    rw [List.getElem?_set_self inside] at held
    cases held
    cases pending
    rw [table.reactions 0 promise found apart reactions status]
    cases wait with
    | none => rfl
    | some wait =>
      have other : wait.1 ≠ 0 := fun same => apart rfl wait.2 (by rw [← same])
      simp [reactionsAt, other]
  · rw [List.getElem?_set_ne (Ne.symm first)] at held
    rw [table.reactions place waiting held apart more pending]
    simp [reactionsAt, first]

/-- The engine awaits the promise that the handler returned. -/
theorem Position.awaited (carried : Carried replay holds) (position : Position holds false world) :
    Position holds true (world.react 0 (.host .handlerSettled)) := by
  have rests := Resting.react 0 (.host .handlerSettled) world
  cases position with
  | goes script single held table handlerDone settled jobs =>
    obtain ⟨promise, found, own, reactions, status⟩ := table.result
    have table' := table.awaited found status
    simp only [World.react, found, status] at rests ⊢
    exact .goes script single (carried.rests rests held) table' handlerDone settled jobs
  | waits target next single held open' table handlerDone settled jobs =>
    obtain ⟨promise, found, own, reactions, status⟩ := table.result
    have table' := table.awaited found status
    simp only [World.react, found, status] at rests ⊢
    refine .waits target next single (carried.rests rests held) (fun outcome => ?_) table' handlerDone settled jobs
    rintro ⟨waiting, listed, ended⟩
    by_cases first : target = 0
    · subst first
      rw [List.getElem?_set_self (List.getElem?_eq_some_iff.mp found).1] at listed
      cases listed
      cases ended
    · rw [List.getElem?_set_ne (Ne.symm first)] at listed
      exact open' outcome ⟨waiting, listed, ended⟩
  | ends completion before held matcher leads unheard result jobs =>
    obtain ⟨promise, found, status⟩ := result
    simp only [World.react, found, status] at rests ⊢
    refine .ends completion before held matcher (fun final later => leads final (rests.leads final later)) unheard
      ⟨promise, found, status⟩ ?_
    rw [jobs]
    rfl
  | ended completion before held matcher leads unheard settled begun jobs => cases begun

/-- The function stands somewhere as long as the replay goes on, by induction on its jobs. -/
theorem Position.performs (carried : Carried replay holds) {trace : List (ReplayJob H)} (performs : Performs replay world trace final)
    (position : Position holds true world) (tagged : Tagged world) (owed : Owed world) : Position holds true final := by
  induction performs with
  | done => exact position
  | job queued onward ih =>
    exact ih (position.perform carried queued) ((replay_tagged replay).preserves.perform _ _ tagged)
      (Owed.isKept.perform replay _ (fun resume _ _ => resume.free_all) ⟨owed.pending, owed.apart⟩)
  | feed quiet due onward ih => exact ih (position.release carried tagged owed _) (tagged.release _) (owed.release _)

/-- The world in which the function starts: it has made the promise that it returns. -/
def begunWorld (heap : H) (root : JsValue → AsyncFunction H) (history : List WorkflowEvent) : ReplayWorld H :=
  ((initialWorld (AsyncFunction.handler heap root) history).alloc ⟨.code, default, .pending []⟩).2

/-- Where nothing is due, a replay leads to where it stands. -/
theorem Leads.refl (fed : nextDelivery final = none) : Leads final final := by
  refine ⟨fun _ _ => id, fun _ => id, .refl _, fun delivery listed => ?_⟩
  have none' : final.host.deliveries.map Prod.fst = [] := List.min?_eq_none_iff.mp fed
  rw [List.map_eq_nil_iff.mp none'] at listed
  cases listed

/-- Where a replay stops, the function has ended or it waits for a promise. -/
theorem Carried.replayed (carried : Carried replay holds) {heap : H} {root : JsValue → AsyncFunction H} {input : JsValue}
    (single : (root input).Single) (held : holds (root input) (begunWorld heap root replay.history))
    (replayed : Replayed replay (AsyncFunction.handler heap root) input final) :
    (∃ completion before, holds (.finish completion) before ∧ final.host.matcher = before.host.matcher ∧ Leads before final ∧
        final.host.settled = some (Settled.of completion)) ∨
      ∃ target next, holds (.awaits target next) final ∧ (∀ outcome, ¬ Told final target outcome) ∧ Leads final final ∧
        final.host.handlerDone = false ∧ final.host.settled = none := by
  have table : Table false none (begunWorld heap root replay.history) := by
    refine ⟨⟨_, rfl, rfl, [], rfl⟩, fun place promise found _ reactions status => ?_⟩
    have only := List.mem_of_getElem? found
    rw [List.mem_singleton.mp only] at status
    cases status
    rfl
  have position : Position holds false _ := carried.run single held table rfl rfl rfl
  have empty : Owed (begunWorld heap root replay.history) := ⟨fun _ none' => absurd none' List.not_mem_nil, List.nodup_nil⟩
  have owed := Owed.isKept.byCode.run replay ((root input).code 0) empty
  have begins := replayed.begins
  change EventLoop.run (replayHost H replay) ((root input).code 0) (begunWorld heap root replay.history) = _ at begins
  have returned := AsyncFunction.returns replay (root input) (begunWorld heap root replay.history)
  rw [begins] at returned position owed
  have result : replayed.result = 0 := JsValue.promise.inj (Except.ok.inj returned)
  obtain ⟨trace, performs, quiet, fed⟩ := replayed.performs
  have tagged := replayed.tagged
  rw [Replayed.start] at tagged
  rw [result] at performs tagged
  have ended := (position.awaited carried).performs carried performs tagged
    (Owed.isKept.react 0 (.host .handlerSettled) (fun resume _ => resume.free_all) owed)
  cases ended with
  | goes script single held table handlerDone settled jobs => cases quiet.symm.trans jobs
  | waits target next single held open' table handlerDone settled jobs =>
    exact .inr ⟨target, next, held, open', .refl fed, handlerDone, settled⟩
  | ends completion before held matcher leads unheard result jobs => cases quiet.symm.trans jobs
  | ended completion before held matcher leads unheard settled begun jobs =>
    exact .inl ⟨completion, before, held, matcher, leads final (.refl fed), settled⟩

end Positions

end DurableExecution.Workflow

import DurableExecution.Workflow.AsyncFunction
import DurableExecution.Workflow.SelfConsistency

/-
This file follows a handler that is one asynchronous function from the last decision that its log records into the
replay that cancels the run. Up to where that decision stopped, both replays get the same answers.
-/

namespace DurableExecution.Workflow

open EventLoop

section Promises

variable {H : Type} {base replay : Replay} {world final first second before after : ReplayWorld H} {target : PromiseId}
  {outcome : Except JsValue JsValue}

/-- A call makes one promise and answers with it. -/
structure Opens (world : ReplayWorld H) (answer : ReplayWorld H × Except JsValue JsValue) : Prop where
  heap : answer.1.heap = world.heap
  length : answer.1.promises.length = world.promises.length + 1
  host : ∃ deliveries, answer.1.host = { world.host with deliveries := deliveries }
  answer : answer.2 = .ok (.promise world.promises.length)

theorem returned_opens (promise : ReplayPromise H) (world : ReplayWorld H) : Opens world (returned (world.alloc promise)) :=
  ⟨rfl, List.length_append, ⟨world.host.deliveries, rfl⟩, rfl⟩

theorem completedAt_opens (place : Nat) (outcome : Except JsValue JsValue) (world : ReplayWorld H) :
    Opens world (completedAt place outcome world) := by
  unfold completedAt
  dsimp only
  split
  · exact returned_opens _ world
  · exact ⟨rfl, List.length_append, ⟨_, rfl⟩, rfl⟩

/-- A wait is settled with the outcome that its place has. -/
theorem completedAt_told {place : Nat} (leads : Leads (completedAt place outcome world).1 final) :
    Told final world.promises.length outcome := by
  unfold completedAt at leads
  dsimp only at leads
  split at leads
  · exact leads.told _ _ ⟨_, List.getElem?_concat_length, rfl⟩
  · exact leads.due (place, world.promises.length, outcome) (List.mem_append_right _ (List.mem_singleton_self _))

theorem rejectedWith_told {error : JsValue} (leads : Leads (rejectedWith error world).1 final) :
    Told final world.promises.length (.error error) :=
  leads.told _ _ ⟨_, List.getElem?_concat_length, rfl⟩

theorem neverSettles_untold (leads : Leads (neverSettles world).1 final) : ¬ Told final world.promises.length outcome :=
  (leads.never _ ⟨_, List.getElem?_concat_length, rfl, rfl, [], rfl⟩).untold

theorem deliveries_isKept (before : ReplayWorld H) : Kept (fun _ => True) fun world : ReplayWorld H =>
    ∀ delivery ∈ before.host.deliveries, delivery ∈ world.host.deliveries where
  same kept _ _ _ deliveries := by rwa [deliveries]
  unplaced _ _ _ kept := kept
  placed {world} place outcome kept := by
    unfold completedAt
    dsimp only
    split
    · exact kept
    · exact fun delivery listed => List.mem_append_left _ (kept delivery listed)
  settle owner target outcome _ _ kept := by rwa [World.settle_host]
  react target reaction _ kept := by rwa [World.react_host]
  enqueue _ _ kept := kept
  opens _ goesOn _ := goesOn trivial

/-- A call of the function is a stretch of its code. -/
theorem functionCall_extends (replay : Replay) (call : ContextCall H) (compensation : WorkflowCode H) (world : ReplayWorld H) :
    world.host.ledger.Extends (functionCall replay call compensation world).1.host.ledger :=
  (replay_grows replay world.host.ledger).preserves.run (.call ⟨.workflow, call⟩ (fun _ => compensation) .finish) world (.refl _)

/-- Where a call leads, the world before it leads too. -/
theorem Leads.call {call : ContextCall H} {compensation : WorkflowCode H}
    (leads : Leads (functionCall replay call compensation world).1 final) : Leads world final := by
  have grows : Grows world (functionCall replay call compensation world).1 :=
    (Grows.refl world).run replay (.call ⟨.workflow, call⟩ (fun _ => compensation) .finish)
  have due := (deliveries_isKept world).byCode.run replay (.call ⟨.workflow, call⟩ (fun _ => compensation) .finish) fun _ => id
  exact grows.leads (functionCall_extends replay call compensation world) (fun delivery listed => .inl (due delivery listed)) leads

theorem Resting.trans (one : Resting before world) (two : Resting world after) : Resting before after :=
  ⟨two.heap.trans one.heap, two.length.trans one.length, two.called.trans one.called,
    fun target never => two.never target (one.never target never), fun final leads => one.leads final (two.leads final leads)⟩

end Promises

section Alike

variable {H : Type} {base replay : Replay} {before : List WorkflowEvent} {final : Ledger} {rest : List WorkflowEvent}
  {firstFinal secondFinal first second : ReplayWorld H} {one two : ReplayState H}

/-- A replay in which the run is cancelled. Its history is `before`, which continues the last decision `base`, and then
what came with the request and after it. -/
structure Cancels (base : Replay) (before : List WorkflowEvent) (final : Ledger) (rest : List WorkflowEvent) (replay : Replay) :
    Prop where
  continues : Continues base ⟨before, replay.options⟩ final rest
  going : cancelRequested base.history = false
  requested : cancelRequested replay.history = true
  history : ∃ later, replay.history = before ++ later ∧ recordedPatchIds later = []

theorem recordedPatchIds_append (one two : List WorkflowEvent) :
    recordedPatchIds (one ++ two) = recordedPatchIds one ++ recordedPatchIds two := List.filterMap_append

theorem Cancels.outcome (cancels : Cancels base before final rest replay) {outcomeOf : WorkflowEvent → Option (Except JsValue JsValue)}
    {skip : Nat} {found : Nat × Except JsValue JsValue} (here : nthOutcome outcomeOf skip 0 base.history = some found) :
    nthOutcome outcomeOf skip 0 replay.history = some found := by
  obtain ⟨later, whole, -⟩ := cancels.history
  rw [whole]
  exact nthOutcome_append_some _ _ _ _ _ _ (cancels.continues.outcome_some outcomeOf skip found here).1

theorem Cancels.patchIds (cancels : Cancels base before final rest replay) : recordedPatchIds replay.history = recordedPatchIds before := by
  obtain ⟨later, whole, none'⟩ := cancels.history
  rw [whole, recordedPatchIds_append, none', List.append_nil]

theorem Cancels.commandCount (cancels : Cancels base before final rest replay) :
    recordedCommandCount base.history ≤ recordedCommandCount replay.history := by
  obtain ⟨later, whole, -⟩ := cancels.history
  rw [whole, recordedCommandCount, recordedCommandCount, List.countP_append]
  exact Nat.le_trans cancels.continues.commandCount (Nat.le_add_right _ _)

theorem CommandMatcher.expected_of_known {matcher : CommandMatcher} {shape : CommandShape}
    (known : (matcher.issue shape false).2 = .ok true) :
    ∃ expected, matcher.expected = some expected ∧ sameCommand expected shape = true := by
  unfold CommandMatcher.issue at known
  rw [if_neg (by simp)] at known
  cases found : matcher.expected with
  | none =>
    rw [found] at known
    cases known
  | some expected =>
    refine ⟨expected, rfl, ?_⟩
    rw [found] at known
    dsimp only at known
    split at known
    · assumption
    · cases known

/-- The states of both replays after the same calls. -/
structure AlikeState (base replay : Replay) (one two : ReplayState H) : Prop where
  recorded : one.matcher.recorded = recordedCommands base.history
  longer : two.matcher.recorded = recordedCommands replay.history
  issued : two.matcher.issued = one.matcher.issued
  steps : two.stepSequence = one.stepSequence
  timers : two.timerSequence = one.timerSequence
  children : two.childSequence = one.childSequence
  signals : two.signalSequences = one.signalSequences
  patches : two.patchDecisions = one.patchDecisions
  calls : two.timeCalls = one.timeCalls
  draws : two.draws = one.draws
  times : (recordedTimes (one.newCommands.map commandToEvent)).length = one.timeCalls - (recordedTimes base.history).length

/-- Both replays know the next command of the handler, and the one that cancels the run has recorded it. -/
theorem Cancels.issue (cancels : Cancels base before final rest replay) (alike : AlikeState base replay one two) {shape : CommandShape}
    {after : Ledger} (taken : after.matcher = (one.matcher.issue shape false).1) (cancelled : Bool) (kept : after.Extends final) :
    ∃ known, one.matcher.issue shape false = ({ one.matcher with issued := one.matcher.issued ++ [shape] }, .ok known) ∧
      two.matcher.issue shape cancelled = ({ two.matcher with issued := one.matcher.issued ++ [shape] }, .ok true) := by
  obtain ⟨known, answer, answer'⟩ := cancels.continues.issue one.matcher ⟨recordedCommands before, one.matcher.issued⟩ shape false after
    alike.recorded rfl rfl taken (by rintro ⟨⟩) kept
  obtain ⟨expected, found, same⟩ := CommandMatcher.expected_of_known (by rw [answer']; simp)
  refine ⟨known, Prod.ext ?_ answer, ?_⟩
  · exact congrArg₂ CommandMatcher.mk (CommandMatcher.issue_recorded one.matcher shape false)
      (CommandMatcher.issue_issued one.matcher shape)
  · rw [← alike.issued]
    refine two.matcher.issue_matched shape expected ?_ same cancelled
    obtain ⟨later, whole, -⟩ := cancels.history
    change (recordedCommands before)[one.matcher.issued.length]? = some expected at found
    change two.matcher.recorded[two.matcher.issued.length]? = some expected
    rw [alike.longer, alike.issued, whole, recordedCommands_append,
      List.getElem?_append_left (List.getElem?_eq_some_iff.mp found).1]
    exact found

theorem AlikeState.counted (alike : AlikeState base replay one two) (shape : CommandShape) :
    AlikeState base replay { one with matcher := { one.matcher with issued := one.matcher.issued ++ [shape] } }
      { two with matcher := { two.matcher with issued := one.matcher.issued ++ [shape] } } :=
  { alike with issued := rfl }

/-- The worlds of both replays after the same calls. What a promise becomes in the first one, it becomes in the second. -/
structure Alike (base replay : Replay) (firstFinal secondFinal first second : ReplayWorld H) : Prop where
  heap : second.heap = first.heap
  length : second.promises.length = first.promises.length
  state : AlikeState base replay first.host second.host
  fates : ∀ target outcome, target ≠ 0 → target < first.promises.length → Told firstFinal target outcome →
    Told secondFinal target outcome

/-- Both calls leave like worlds, and answer the same. -/
def AnswersAlike (base replay : Replay) (firstFinal secondFinal : ReplayWorld H) (one two : ReplayWorld H × Except JsValue JsValue) :
    Prop :=
  Alike base replay firstFinal secondFinal one.1 two.1 ∧ one.2 = two.2

theorem Alike.opens (alike : Alike base replay firstFinal secondFinal first second)
    {left right : ReplayWorld H × Except JsValue JsValue} (opened : Opens first left) (opened' : Opens second right)
    (fate : ∀ outcome, Told firstFinal first.promises.length outcome → Told secondFinal first.promises.length outcome) :
    AnswersAlike base replay firstFinal secondFinal left right := by
  obtain ⟨deliveries, host⟩ := opened.host
  obtain ⟨deliveries', host'⟩ := opened'.host
  refine ⟨⟨?_, ?_, ?_, fun target outcome other inside told => ?_⟩, ?_⟩
  · rw [opened.heap, opened'.heap, alike.heap]
  · rw [opened.length, opened'.length, alike.length]
  · rw [host, host']
    exact { alike.state with }
  · rw [opened.length] at inside
    rcases Nat.lt_succ_iff_lt_or_eq.mp inside with old | rfl
    · exact alike.fates target outcome other old told
    · exact fate outcome told
  · rw [opened.answer, opened'.answer, alike.length]

/-- A wait that both histories end at one place. -/
theorem Alike.completed (alike : Alike base replay firstFinal secondFinal first second) {place : Nat} {outcome : Except JsValue JsValue}
    (leads : Leads (completedAt place outcome first).1 firstFinal) (leads' : Leads (completedAt place outcome second).1 secondFinal) :
    AnswersAlike base replay firstFinal secondFinal (completedAt place outcome first) (completedAt place outcome second) := by
  refine alike.opens (completedAt_opens _ _ _) (completedAt_opens _ _ _) fun other told => ?_
  rw [told.unique (completedAt_told leads), ← alike.length]
  exact completedAt_told leads'

/-- A wait that the first history leaves open. The cancellation or a later event may end it. -/
theorem Alike.waits (alike : Alike base replay firstFinal secondFinal first second) (leads : Leads (neverSettles first).1 firstFinal)
    {answer : ReplayWorld H × Except JsValue JsValue} (opened : Opens second answer) :
    AnswersAlike base replay firstFinal secondFinal (neverSettles first) answer :=
  alike.opens (returned_opens _ _) opened fun _ told => absurd told (neverSettles_untold leads)

theorem Alike.rejected (alike : Alike base replay firstFinal secondFinal first second) {error : JsValue}
    (leads : Leads (rejectedWith error first).1 firstFinal) (leads' : Leads (rejectedWith error second).1 secondFinal) :
    AnswersAlike base replay firstFinal secondFinal (rejectedWith error first) (rejectedWith error second) := by
  refine alike.opens (returned_opens _ _) (returned_opens _ _) fun other told => ?_
  rw [told.unique (rejectedWith_told leads), ← alike.length]
  exact rejectedWith_told leads'

end Alike

section Calls

variable {H : Type} {base replay : Replay} {before : List WorkflowEvent} {rest : List WorkflowEvent}
  {firstFinal secondFinal first second : ReplayWorld H}

end Calls

section Scripts

variable {H : Type} {base replay : Replay} {before : List WorkflowEvent} {rest : List WorkflowEvent} {heap : H}
  {root : JsValue → AsyncFunction H} {input : JsValue} {firstFinal secondFinal first second world after : ReplayWorld H}
  {script : AsyncFunction H}

/-- What the function does from here to where the replay stops. -/
def Goes (replay : Replay) (final : ReplayWorld H) : AsyncFunction H → ReplayWorld H → Prop
  | .finish _, world => final.host.matcher = world.host.matcher
  | .reads next, world => Goes replay final (next world.heap) world
  | .writes heap next, world => Goes replay final next { world with heap := heap }
  | .calls call compensation next, world => ∃ calling, Resting world calling ∧
      Leads (functionCall replay call compensation calling).1 final ∧
      Goes replay final (next (functionCall replay call compensation calling).2) (functionCall replay call compensation calling).1
  | .awaits target next, world => final.host.matcher = world.host.matcher ∨
      ∃ outcome, target ≠ 0 ∧ target < world.promises.length ∧ Told final target outcome ∧ Goes replay final (next outcome) world

/-- What happens between two stretches of the function changes nothing about what it does. -/
theorem Goes.rests (rests : Resting world after) (goes : Goes replay firstFinal script after) : Goes replay firstFinal script world := by
  induction script generalizing world after with
  | finish completion => exact Eq.trans goes rests.matcher
  | reads next ih =>
    have onward := ih _ rests goes
    rw [rests.heap] at onward
    exact onward
  | writes heap next ih =>
    refine ih ?_ goes
    exact ⟨rfl, rests.length, rests.called, rests.never, fun final leads => .of_same (by rfl) (by rfl)
      (rests.leads final (.of_same (by rfl) (by rfl) leads))⟩
  | calls call compensation next ih =>
    obtain ⟨calling, before, leads, onward⟩ := goes
    exact ⟨calling, rests.trans before, leads, onward⟩
  | awaits target next ih =>
    rcases goes with stops | ⟨outcome, other, inside, told, onward⟩
    · exact .inl (stops.trans rests.matcher)
    · exact .inr ⟨outcome, other, by rw [← rests.length]; exact inside, told, ih outcome rests onward⟩

theorem Told.inside {target : PromiseId} {outcome : Except JsValue JsValue} (told : Told world target outcome) :
    target < world.promises.length := by
  obtain ⟨promise, found, -⟩ := told
  exact (List.getElem?_eq_some_iff.mp found).1

/-- The function goes from its start to where its replay stops. -/
theorem AsyncFunction.goes (single : (root input).Single) (replayed : Replayed replay (AsyncFunction.handler heap root) input firstFinal) :
    Goes replay firstFinal (root input) (begunWorld heap root replay.history) := by
  have carried : Carried replay fun script world => Leads world firstFinal → Goes replay firstFinal script world →
      Goes replay firstFinal (root input) (begunWorld heap root replay.history) := {
    rests := fun rests held leads goes => held (rests.leads _ leads) (goes.rests rests)
    reads := fun held => held
    writes := fun held leads goes => held (.of_same (by rfl) (by rfl) leads) goes
    calls := fun {call compensation next world} held single leads goes => held leads.call ⟨world, .refl world, leads, goes⟩
    resumes := fun {target next world outcome} held other told leads goes =>
      held leads (.inr ⟨outcome, other, told.inside, leads.told target outcome told, goes⟩) }
  rcases carried.replayed single (fun _ goes => goes) replayed with
    ⟨completion, ended, held, matcher, leads, -⟩ | ⟨target, next, held, -, leads, -⟩
  · exact held leads matcher
  · exact held leads (.inl rfl)

/-- Like states differ only in what the code does not see. -/
theorem AlikeState.called {one two one' two' : ReplayState H} (state : AlikeState base replay one two) (same : one'.called = one.called)
    (same' : two'.called = two.called) : AlikeState base replay one' two' := by
  have forgets : AlikeState base replay one'.called two'.called := by
    rw [same, same']
    exact { state with }
  exact { forgets with }

theorem Alike.rests (alike : Alike base replay firstFinal secondFinal first second) (rests : Resting first world)
    (rests' : Resting second after) : Alike base replay firstFinal secondFinal world after := by
  refine ⟨?_, ?_, alike.state.called rests.called rests'.called, ?_⟩
  · rw [rests.heap, rests'.heap, alike.heap]
  · rw [rests.length, rests'.length, alike.length]
  · rw [rests.length]
    exact alike.fates

/-- The replay that cancels the run is where the last decision was, or past it. -/
def Reaches (base replay : Replay) (firstFinal secondFinal : ReplayWorld H) (script : AsyncFunction H) (second : ReplayWorld H) : Prop :=
  Leads second secondFinal → firstFinal.host.matcher.issued <+: second.host.matcher.issued ∨
    ∃ first, Goes base firstFinal script first ∧ Alike base replay firstFinal secondFinal first second

end Scripts

end DurableExecution.Workflow

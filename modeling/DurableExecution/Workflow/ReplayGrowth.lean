import DurableExecution.Workflow.ReplayInvariant

/-
This file shows what a replay never takes back: the commands it issued and
discovered, the patches it decided and the numbers it gave out.
-/

namespace DurableExecution.Workflow

open EventLoop

/-- A command that was first issued between two states of a replay. -/
def CommandShape.Between (before after : Ledger) : CommandShape → Prop
  | .step id .. => ∃ number, id = "step-" ++ toString number ∧
      before.stepSequence < number ∧ number ≤ after.stepSequence
  | .timer id duration => (∃ number, id = "timer-" ++ toString number ∧
      before.timerSequence < number ∧ number ≤ after.timerSequence) ∧
      ∃ valid, duration = some valid ∧ valid.sleepMs.isSome
  | .child id .. => ∃ number, id = "child-" ++ toString number ∧
      before.childSequence < number ∧ number ≤ after.childSequence
  | .patch id => before.patchDecisions.lookup id = none

/-- The numbered command that a state of a replay gave out last. -/
def CommandShape.Latest (ledger : Ledger) : CommandShape → Prop
  | .step id .. => id = "step-" ++ toString ledger.stepSequence
  | .timer id _ => id = "timer-" ++ toString ledger.timerSequence
  | .child id .. => id = "child-" ++ toString ledger.childSequence
  | .patch _ => False

/-- One state of a replay comes after another. -/
structure Ledger.Extends (before after : Ledger) : Prop where
  recorded : after.matcher.recorded = before.matcher.recorded
  issued : ∃ later, after.matcher.issued = before.matcher.issued ++ later ∧
    ∀ shape ∈ later, shape.Between before after
  commands : before.newCommands <+: after.newCommands
  patches : before.patchDecisions <+: after.patchDecisions
  steps : before.stepSequence ≤ after.stepSequence
  timers : before.timerSequence ≤ after.timerSequence
  children : before.childSequence ≤ after.childSequence
  rejected : before.rejectedWaits <+: after.rejectedWaits
  unrepresentable : before.unrepresentableTimers <+: after.unrepresentableTimers
  choices : before.cancelledChoices ≤ after.cancelledChoices

theorem lookup_none_of_prefix {K V : Type} [BEq K] {short long : List (K × V)} {key : K}
    (shorter : short <+: long) (absent : long.lookup key = none) : short.lookup key = none := by
  obtain ⟨rest, rfl⟩ := shorter
  rw [List.lookup_append, Option.or_eq_none_iff] at absent
  exact absent.1

theorem lookup_of_prefix {K V : Type} [BEq K] {short long : List (K × V)} {key : K} {value : V}
    (shorter : short <+: long) (found : short.lookup key = some value) : long.lookup key = some value := by
  obtain ⟨rest, rfl⟩ := shorter
  rw [List.lookup_append, found, Option.some_or]

namespace Ledger.Extends

variable {first second third : Ledger}

theorem refl (ledger : Ledger) : ledger.Extends ledger where
  recorded := rfl
  issued := ⟨[], (List.append_nil _).symm, fun _ absent => nomatch absent⟩
  commands := List.prefix_rfl
  patches := List.prefix_rfl
  steps := Nat.le_refl _
  timers := Nat.le_refl _
  children := Nat.le_refl _
  rejected := List.prefix_rfl
  unrepresentable := List.prefix_rfl
  choices := Nat.le_refl _

theorem between_later (extends' : second.Extends third) (shape : CommandShape)
    (between : shape.Between first second) : shape.Between first third := by
  cases shape with
  | step id =>
    obtain ⟨number, named, above, below⟩ := between
    exact ⟨number, named, above, Nat.le_trans below extends'.steps⟩
  | timer id =>
    obtain ⟨⟨number, named, above, below⟩, valid⟩ := between
    exact ⟨⟨number, named, above, Nat.le_trans below extends'.timers⟩, valid⟩
  | child id =>
    obtain ⟨number, named, above, below⟩ := between
    exact ⟨number, named, above, Nat.le_trans below extends'.children⟩
  | patch id => exact between

theorem between_earlier (extends' : first.Extends second) (shape : CommandShape)
    (between : shape.Between second third) : shape.Between first third := by
  cases shape with
  | step id =>
    obtain ⟨number, named, above, below⟩ := between
    exact ⟨number, named, Nat.lt_of_le_of_lt extends'.steps above, below⟩
  | timer id =>
    obtain ⟨⟨number, named, above, below⟩, valid⟩ := between
    exact ⟨⟨number, named, Nat.lt_of_le_of_lt extends'.timers above, below⟩, valid⟩
  | child id =>
    obtain ⟨number, named, above, below⟩ := between
    exact ⟨number, named, Nat.lt_of_le_of_lt extends'.children above, below⟩
  | patch id => exact lookup_none_of_prefix extends'.patches between

theorem trans (one : first.Extends second) (two : second.Extends third) : first.Extends third where
  recorded := two.recorded.trans one.recorded
  issued := by
    obtain ⟨early, issued, between⟩ := one.issued
    obtain ⟨late, issued', between'⟩ := two.issued
    refine ⟨early ++ late, by rw [issued', issued, List.append_assoc], ?_⟩
    intro shape member
    rcases List.mem_append.mp member with member | member
    · exact two.between_later shape (between shape member)
    · exact one.between_earlier shape (between' shape member)
  commands := one.commands.trans two.commands
  patches := one.patches.trans two.patches
  steps := Nat.le_trans one.steps two.steps
  timers := Nat.le_trans one.timers two.timers
  children := Nat.le_trans one.children two.children
  rejected := one.rejected.trans two.rejected
  unrepresentable := one.unrepresentable.trans two.unrepresentable
  choices := Nat.le_trans one.choices two.choices

end Ledger.Extends

/-- The matcher counts a call or leaves it out. -/
theorem CommandMatcher.issue_matcher (matcher : CommandMatcher) (shape : CommandShape)
    (whileCancelling : Bool) :
    (matcher.issue shape whileCancelling).1 = matcher ∨
      (matcher.issue shape whileCancelling).1 = { matcher with issued := matcher.issued ++ [shape] } := by
  unfold issue
  split
  · exact .inl rfl
  · right
    split
    · rfl
    · split <;> rfl

/-- What a call with a recorded command does to the ledger: it takes the next number, asks
the matcher, and discovers its command when the history has neither it nor its outcome. -/
structure Ledger.Counted (before after : Ledger) (shape : CommandShape) (cancelled : Bool)
    (command : WorkflowCommand) (outcome : Option (Nat × Except JsValue JsValue)) : Prop where
  matcher : after.matcher = (before.matcher.issue shape cancelled).1
  between : shape.Between before after
  latest : shape.Latest after
  discovered : (after.newCommands = before.newCommands ++ [command] ∧
      (before.matcher.issue shape cancelled).2 = .ok false ∧ outcome = none) ∨
    (after.newCommands = before.newCommands ∧
      ((before.matcher.issue shape cancelled).2 ≠ .ok false ∨ outcome ≠ none ∨ cancelled = true ∨
        after.unrepresentableTimers ≠ []))
  patches : after.patchDecisions = before.patchDecisions
  consulted : after.consultedPatches = before.consultedPatches
  times : after.timeCalls = before.timeCalls
  steps : before.stepSequence ≤ after.stepSequence
  timers : before.timerSequence ≤ after.timerSequence
  children : before.childSequence ≤ after.childSequence
  sum : after.stepSequence + after.timerSequence + after.childSequence =
    before.stepSequence + before.timerSequence + before.childSequence + 1
  rejected : before.rejectedWaits <+: after.rejectedWaits
  going : cancelled = false → after.rejectedWaits = before.rejectedWaits
  unrepresentable : before.unrepresentableTimers <+: after.unrepresentableTimers
  choices : after.cancelledChoices = before.cancelledChoices

theorem Ledger.Counted.extends {before after : Ledger} {shape : CommandShape} {cancelled : Bool}
    {command : WorkflowCommand} {outcome : Option (Nat × Except JsValue JsValue)}
    (counted : before.Counted after shape cancelled command outcome) : before.Extends after where
  recorded := by rw [counted.matcher, CommandMatcher.issue_recorded]
  issued := by
    rcases before.matcher.issue_matcher shape cancelled with skipped | taken
    · exact ⟨[], by rw [counted.matcher, skipped, List.append_nil], fun _ absent => nomatch absent⟩
    · refine ⟨[shape], by rw [counted.matcher, taken], ?_⟩
      intro other member
      rw [List.mem_singleton.mp member]
      exact counted.between
  commands := by
    rcases counted.discovered with ⟨pushed, _⟩ | ⟨kept, _⟩
    · exact pushed ▸ List.prefix_append _ _
    · exact kept ▸ List.prefix_rfl
  patches := counted.patches ▸ List.prefix_rfl
  steps := counted.steps
  timers := counted.timers
  children := counted.children
  rejected := counted.rejected
  unrepresentable := counted.unrepresentable
  choices := Nat.le_of_eq counted.choices.symm

/-- The next number of its kind goes to the call, and the matcher sees it. -/
def Ledger.count (ledger : Ledger) (shape : CommandShape) (cancelled : Bool) : Ledger :=
  let matcher := (ledger.matcher.issue shape cancelled).1
  match shape with
  | .step .. => { ledger with matcher := matcher, stepSequence := ledger.stepSequence + 1 }
  | .timer .. => { ledger with matcher := matcher, timerSequence := ledger.timerSequence + 1 }
  | .child .. => { ledger with matcher := matcher, childSequence := ledger.childSequence + 1 }
  | .patch .. => { ledger with matcher := matcher }

/-- A call that is no patch counts as soon as it has its number. -/
theorem Ledger.Counted.of (ledger : Ledger) {shape : CommandShape} (cancelled : Bool)
    {command : WorkflowCommand} {outcome : Option (Nat × Except JsValue JsValue)}
    (commands : List WorkflowCommand) (rejected : List Wait) (unrepresentable : List String)
    (deliveries : List (Nat × PromiseId × Except JsValue JsValue))
    (numbered : ∀ id, shape ≠ .patch id)
    (between : shape.Between ledger (ledger.count shape cancelled))
    (latest : shape.Latest (ledger.count shape cancelled))
    (noted : ledger.rejectedWaits <+: rejected) (going : cancelled = false → rejected = ledger.rejectedWaits)
    (noted' : ledger.unrepresentableTimers <+: unrepresentable)
    (discovered : (commands = ledger.newCommands ++ [command] ∧
        (ledger.matcher.issue shape cancelled).2 = .ok false ∧ outcome = none) ∨
      (commands = ledger.newCommands ∧
        ((ledger.matcher.issue shape cancelled).2 ≠ .ok false ∨ outcome ≠ none ∨ cancelled = true ∨
          unrepresentable ≠ []))) :
    ledger.Counted { ledger.count shape cancelled with
      newCommands := commands
      rejectedWaits := rejected
      unrepresentableTimers := unrepresentable
      deliveries := deliveries } shape cancelled command outcome := by
  cases shape with
  | patch id => exact absurd rfl (numbered id)
  | step id stepType input =>
    exact ⟨rfl, between, latest, discovered, rfl, rfl, rfl, Nat.le_succ _, Nat.le_refl _, Nat.le_refl _,
      by dsimp only [count]; omega, noted, going, noted', rfl⟩
  | timer id duration =>
    exact ⟨rfl, between, latest, discovered, rfl, rfl, rfl, Nat.le_refl _, Nat.le_succ _, Nat.le_refl _,
      by dsimp only [count]; omega, noted, going, noted', rfl⟩
  | child id workflowType input =>
    exact ⟨rfl, between, latest, discovered, rfl, rfl, rfl, Nat.le_refl _, Nat.le_refl _, Nat.le_succ _,
      by dsimp only [count]; omega, noted, going, noted', rfl⟩

/-- What asking about a patch does to the ledger. -/
inductive Ledger.Asked (replay : Replay) (patchId : String) (ledger : Ledger) : Ledger → Prop where
  | decided (useNewPath : Bool) (known : ledger.patchDecisions.lookup patchId = some useNewPath) :
      Asked replay patchId ledger { ledger with consultedPatches := ledger.consultedPatches ++ [patchId] }
  | mismatch (undecided : ledger.patchDecisions.lookup patchId = none) (error : JsValue)
      (refused : (ledger.matcher.issue (.patch patchId) false).2 = .error error) :
      Asked replay patchId ledger { ledger with
        consultedPatches := ledger.consultedPatches ++ [patchId]
        matcher := (ledger.matcher.issue (.patch patchId) false).1 }
  | recorded (undecided : ledger.patchDecisions.lookup patchId = none) (known : Bool)
      (issued : (ledger.matcher.issue (.patch patchId) false).2 = .ok known)
      (held : patchId ∈ recordedPatchIds replay.history) :
      Asked replay patchId ledger { ledger with
        consultedPatches := ledger.consultedPatches ++ [patchId]
        matcher := (ledger.matcher.issue (.patch patchId) false).1
        patchDecisions := ledger.patchDecisions ++ [(patchId, true)] }
  | behind (undecided : ledger.patchDecisions.lookup patchId = none)
      (unheld : patchId ∉ recordedPatchIds replay.history)
      (replaying : ledger.stepSequence + ledger.timerSequence + ledger.childSequence <
        recordedCommandCount replay.history) :
      Asked replay patchId ledger { ledger with
        consultedPatches := ledger.consultedPatches ++ [patchId]
        patchDecisions := ledger.patchDecisions ++ [(patchId, false)] }
  | discovered (undecided : ledger.patchDecisions.lookup patchId = none) (known : Bool)
      (issued : (ledger.matcher.issue (.patch patchId) false).2 = .ok known)
      (unheld : patchId ∉ recordedPatchIds replay.history)
      (caughtUp : recordedCommandCount replay.history ≤
        ledger.stepSequence + ledger.timerSequence + ledger.childSequence) :
      Asked replay patchId ledger { ledger with
        consultedPatches := ledger.consultedPatches ++ [patchId]
        matcher := (ledger.matcher.issue (.patch patchId) false).1
        newCommands := ledger.newCommands ++ [.recordPatch patchId replay.options.buildId]
        patchDecisions := ledger.patchDecisions ++ [(patchId, true)] }

/-- What reading the time does to the ledger. -/
inductive Ledger.Timed (replay : Replay) (ledger : Ledger) : Ledger → Prop where
  | replayed (time : Instant) (recorded : (recordedTimes replay.history)[ledger.timeCalls]? = some time) :
      Timed replay ledger { ledger with timeCalls := ledger.timeCalls + 1 }
  | discovered (time : Instant) (past : (recordedTimes replay.history)[ledger.timeCalls]? = none) :
      Timed replay ledger { ledger with
        timeCalls := ledger.timeCalls + 1
        newCommands := ledger.newCommands ++ [.recordTime time] }

theorem Ledger.Asked.extends {replay : Replay} {patchId : String} {before after : Ledger}
    (asked : before.Asked replay patchId after) : before.Extends after := by
  have grown (commands : List WorkflowCommand) (decisions : List (String × Bool))
      (undecided : before.patchDecisions.lookup patchId = none) :
      before.Extends { before with
        consultedPatches := before.consultedPatches ++ [patchId]
        matcher := (before.matcher.issue (.patch patchId) false).1
        newCommands := before.newCommands ++ commands
        patchDecisions := before.patchDecisions ++ decisions } :=
    { Ledger.Extends.refl before with
      recorded := before.matcher.issue_recorded _ _
      issued := ⟨[.patch patchId], before.matcher.issue_issued _, fun shape member => by
        rw [List.mem_singleton.mp member]
        exact undecided⟩
      commands := List.prefix_append _ _
      patches := List.prefix_append _ _ }
  cases asked with
  | decided => exact { Ledger.Extends.refl before with }
  | mismatch undecided => simpa only [List.append_nil] using grown [] [] undecided
  | recorded undecided => simpa only [List.append_nil] using grown [] [(patchId, true)] undecided
  | behind => exact { Ledger.Extends.refl before with patches := List.prefix_append _ _ }
  | discovered undecided => exact grown _ _ undecided

theorem Ledger.Timed.extends {replay : Replay} {before after : Ledger} (timed : before.Timed replay after) : before.Extends after := by
  cases timed with
  | replayed => exact { Ledger.Extends.refl before with }
  | discovered => exact { Ledger.Extends.refl before with commands := List.prefix_append _ _ }

section Calls

variable {H : Type}

/-- A place in the history only adds a delivery. -/
theorem completedAt_ledger (historyIndex : Nat) (outcome : Except JsValue JsValue)
    (world : ReplayWorld H) :
    ∃ deliveries, (completedAt historyIndex outcome world).1.host.ledger =
      { world.host.ledger with deliveries := deliveries } := by
  unfold completedAt
  dsimp only
  split
  · exact ⟨world.host.deliveries, rfl⟩
  · exact ⟨_, rfl⟩

theorem step_counted (replay : Replay) (cancelled : Bool) (stepType : String) (input : JsValue) (world : ReplayWorld H) (stepId : String)
    (named : stepId = "step-" ++ toString (world.host.stepSequence + 1)) :
    world.host.ledger.Counted (step replay cancelled stepType input world).1.host.ledger
      (.step stepId stepType input) cancelled (.scheduleStep stepId stepType input)
      (nthOutcome (stepOutcome stepId stepType) 0 0 replay.history) := by
  subst named
  have numbered : ∀ id, CommandShape.step ("step-" ++ toString (world.host.stepSequence + 1)) stepType input
      ≠ .patch id := nofun
  have between : CommandShape.Between world.host.ledger
      (world.host.ledger.count (.step ("step-" ++ toString (world.host.stepSequence + 1)) stepType input)
        cancelled) (.step ("step-" ++ toString (world.host.stepSequence + 1)) stepType input) :=
    ⟨_, rfl, Nat.lt_succ_self _, Nat.le_refl _⟩
  unfold step
  dsimp only [issue]
  split
  · next after mismatch answer =>
      obtain ⟨rfl, failed⟩ := Prod.mk.inj answer
      refine .of _ cancelled _ _ _ _ numbered between rfl List.prefix_rfl (fun _ => rfl) List.prefix_rfl
        (.inr ⟨rfl, .inl ?_⟩)
      exact fun known => nomatch failed.symm.trans known
  · next after recorded answer =>
      obtain ⟨rfl, known⟩ := Prod.mk.inj answer
      split
      · next historyIndex outcome found =>
          obtain ⟨deliveries, placed⟩ := completedAt_ledger historyIndex outcome _
          rw [placed]
          refine .of _ cancelled _ _ _ _ numbered between rfl List.prefix_rfl (fun _ => rfl) List.prefix_rfl
            (.inr ⟨rfl, .inr (.inl ?_)⟩)
          exact fun absent => nomatch found.symm.trans absent
      · next absent =>
          split
          · next skipped =>
              refine .of _ cancelled _ _ _ _ numbered between rfl (List.prefix_append _ _)
                (fun open' => by simp_all) List.prefix_rfl
                (.inr ⟨rfl, .inr (.inr (.inl ?_))⟩)
              simp_all
          · next going =>
              cases recorded with
              | true =>
                cases cancelled <;>
                  exact .of _ _ _ _ _ _ numbered between rfl List.prefix_rfl (fun _ => rfl) List.prefix_rfl
                    (.inr ⟨rfl, .inl fun new => nomatch known.symm.trans new⟩)
              | false =>
                cases cancelled with
                | true => exact absurd rfl going
                | false =>
                  exact .of _ _ _ _ _ _ numbered between rfl List.prefix_rfl (fun _ => rfl) List.prefix_rfl
                    (.inl ⟨rfl, known, absent⟩)

/-- A sleep that is refused leaves the ledger alone. -/
theorem sleep_refused (replay : Replay) (cancelled : Bool) (durationMs : JsNumber)
    (world : ReplayWorld H) (refused : durationMs.sleepMs = none) : (sleep replay cancelled durationMs world).1.host = world.host := by
  simp only [sleep, refused]
  rfl

theorem sleep_counted (replay : Replay) (cancelled : Bool) (durationMs : JsNumber) (world : ReplayWorld H) (timerId : String)
    (named : timerId = "timer-" ++ toString (world.host.timerSequence + 1)) (duration : Rat)
    (accepted : durationMs.sleepMs = some duration) :
    ∃ fireAt, world.host.ledger.Counted (sleep replay cancelled durationMs world).1.host.ledger
      (.timer timerId (some durationMs)) cancelled (.startTimer timerId fireAt durationMs)
      (nthOutcome (timerOutcome timerId) 0 0 replay.history) := by
  subst named
  unfold sleep
  simp only [accepted]
  have numbered : ∀ id, CommandShape.timer ("timer-" ++ toString (world.host.timerSequence + 1))
      (some durationMs) ≠ .patch id := nofun
  have between : CommandShape.Between world.host.ledger
      (world.host.ledger.count (.timer ("timer-" ++ toString (world.host.timerSequence + 1))
        (some durationMs)) cancelled)
      (.timer ("timer-" ++ toString (world.host.timerSequence + 1)) (some durationMs)) :=
    ⟨⟨_, rfl, Nat.lt_succ_self _, Nat.le_refl _⟩, durationMs, rfl, accepted ▸ rfl⟩
  dsimp only [issue]
  split
  · next after mismatch answer =>
      obtain ⟨rfl, failed⟩ := Prod.mk.inj answer
      refine ⟨.epoch, .of _ cancelled _ _ _ _ numbered between rfl List.prefix_rfl (fun _ => rfl) List.prefix_rfl
        (.inr ⟨rfl, .inl ?_⟩)⟩
      exact fun known => nomatch failed.symm.trans known
  · next after recorded answer =>
      obtain ⟨rfl, known⟩ := Prod.mk.inj answer
      split
      · next historyIndex outcome found =>
          obtain ⟨deliveries, placed⟩ := completedAt_ledger historyIndex outcome _
          rw [placed]
          refine ⟨.epoch, .of _ cancelled _ _ _ _ numbered between rfl List.prefix_rfl (fun _ => rfl) List.prefix_rfl
            (.inr ⟨rfl, .inr (.inl ?_)⟩)⟩
          exact fun absent => nomatch found.symm.trans absent
      · next absent =>
          split
          · next skipped =>
              exact ⟨.epoch, .of _ cancelled _ _ _ _ numbered between rfl (List.prefix_append _ _)
                (fun going => nomatch skipped.symm.trans going) List.prefix_rfl (.inr ⟨rfl, .inr (.inr (.inl skipped))⟩)⟩
          · next going =>
              cases recorded with
              | true =>
                exact ⟨.epoch, .of _ cancelled _ _ _ _ numbered between rfl List.prefix_rfl (fun _ => rfl) List.prefix_rfl
                  (.inr ⟨rfl, .inl fun new => nomatch known.symm.trans new⟩)⟩
              | false =>
                simp only [Bool.false_eq_true, ↓reduceIte]
                split
                · exact ⟨.epoch, .of _ cancelled _ _ _ _ numbered between rfl List.prefix_rfl (fun _ => rfl)
                    (List.prefix_append _ _) (.inr ⟨rfl, .inr (.inr (.inr
                      (List.append_ne_nil_of_right_ne_nil _ (List.cons_ne_nil _ _))))⟩)⟩
                · next fireAt _ =>
                    exact ⟨fireAt, .of _ cancelled _ _ _ _ numbered between rfl List.prefix_rfl (fun _ => rfl)
                      List.prefix_rfl (.inl ⟨rfl, known, absent⟩)⟩

/-- A child beyond the limit takes a number and nothing else. -/
theorem startChild_refused (replay : Replay) (cancelled : Bool) (workflowType : String)
    (input : JsValue) (options : ChildOptions) (world : ReplayWorld H)
    (beyond : replay.options.childLimit < world.host.childSequence + 1) :
    startChild replay cancelled workflowType input options world =
      (update (fun state => { state with childSequence := state.childSequence + 1 }) world,
        .error (childLimitExceededError replay.options.childLimit)) := by
  unfold startChild
  dsimp only [update]
  rw [if_pos beyond]

theorem startChild_counted (replay : Replay) (cancelled : Bool) (workflowType : String)
    (input : JsValue) (options : ChildOptions) (world : ReplayWorld H) (childId : String)
    (named : childId = "child-" ++ toString (world.host.childSequence + 1))
    (within : ¬ replay.options.childLimit < world.host.childSequence + 1) :
    world.host.ledger.Counted (startChild replay cancelled workflowType input options world).1.host.ledger
      (.child childId workflowType input) cancelled (.startChild childId workflowType input (options.parentClosePolicy.getD .cancel)
        options.runTimeoutMs options.executionTimeoutMs) none := by
  subst named
  have numbered : ∀ id, CommandShape.child ("child-" ++ toString (world.host.childSequence + 1))
      workflowType input ≠ .patch id := nofun
  have between : CommandShape.Between world.host.ledger
      (world.host.ledger.count (.child ("child-" ++ toString (world.host.childSequence + 1))
        workflowType input) cancelled)
      (.child ("child-" ++ toString (world.host.childSequence + 1)) workflowType input) :=
    ⟨_, rfl, Nat.lt_succ_self _, Nat.le_refl _⟩
  unfold startChild
  dsimp only [issue, update]
  rw [if_neg within]
  split
  · next after mismatch answer =>
      obtain ⟨rfl, failed⟩ := Prod.mk.inj answer
      refine .of _ cancelled _ _ _ _ numbered between rfl List.prefix_rfl (fun _ => rfl) List.prefix_rfl
        (.inr ⟨rfl, .inl ?_⟩)
      exact fun known => nomatch failed.symm.trans known
  · next after recorded answer =>
      obtain ⟨rfl, known⟩ := Prod.mk.inj answer
      split
      · next skipped =>
          refine .of _ cancelled _ _ _ _ numbered between rfl (List.prefix_append _ _)
                (fun open' => by simp_all) List.prefix_rfl
            (.inr ⟨rfl, .inr (.inr (.inl ?_))⟩)
          simp_all
      · next going =>
          cases recorded with
          | true =>
            simp only [↓reduceIte]
            split
            · next historyIndex outcome found =>
                obtain ⟨deliveries, placed⟩ := completedAt_ledger historyIndex outcome _
                rw [placed]
                exact .of _ cancelled _ _ _ _ numbered between rfl List.prefix_rfl (fun _ => rfl) List.prefix_rfl
                  (.inr ⟨rfl, .inl fun new => nomatch known.symm.trans new⟩)
            · cases cancelled
              · exact .of _ _ _ _ _ _ numbered between rfl List.prefix_rfl (fun _ => rfl) List.prefix_rfl
                  (.inr ⟨rfl, .inl fun new => nomatch known.symm.trans new⟩)
              · exact .of _ _ _ _ _ _ numbered between rfl (List.prefix_append _ _) nofun List.prefix_rfl
                  (.inr ⟨rfl, .inl fun new => nomatch known.symm.trans new⟩)
          | false =>
            cases cancelled with
            | true => exact absurd rfl going
            | false =>
              simp only [Bool.false_eq_true, ↓reduceIte]
              split
              · next historyIndex outcome found =>
                  obtain ⟨deliveries, placed⟩ := completedAt_ledger historyIndex outcome _
                  rw [placed]
                  exact .of _ _ _ _ _ _ numbered between rfl List.prefix_rfl (fun _ => rfl) List.prefix_rfl
                    (.inl ⟨rfl, known, rfl⟩)
              · exact .of _ _ _ _ _ _ numbered between rfl List.prefix_rfl (fun _ => rfl) List.prefix_rfl
                  (.inl ⟨rfl, known, rfl⟩)

/-- Waiting for a signal takes no command. -/
theorem waitForSignal_ledger (replay : Replay) (cancelled : Bool) (signalName : String)
    (world : ReplayWorld H) :
    ∃ deliveries rejected, world.host.rejectedWaits <+: rejected ∧
      (cancelled = false → rejected = world.host.rejectedWaits) ∧
      (waitForSignal replay cancelled signalName world).1.host.ledger =
        { world.host.ledger with deliveries := deliveries, rejectedWaits := rejected } := by
  unfold waitForSignal
  dsimp only
  split
  · next historyIndex outcome found =>
      obtain ⟨deliveries, placed⟩ := completedAt_ledger historyIndex outcome _
      exact ⟨deliveries, _, List.prefix_rfl, fun _ => rfl, placed⟩
  · split
    · next ending =>
        refine ⟨_, _, List.prefix_append _ _, ?_, rfl⟩
        intro going
        cases ending.symm.trans going
    · exact ⟨_, _, List.prefix_rfl, fun _ => rfl, rfl⟩

theorem decidePatch_asked (replay : Replay) (patchId : String) (world : ReplayWorld H) :
    world.host.ledger.Asked replay patchId (decidePatch replay patchId world).1.host.ledger := by
  unfold decidePatch
  dsimp only [issue]
  split
  · next useNewPath known => exact .decided useNewPath known
  · next undecided =>
      split
      · next held =>
          split
          · next after error answer =>
              obtain ⟨rfl, refused⟩ := Prod.mk.inj answer
              exact .mismatch undecided error refused
          · next after known answer =>
              obtain ⟨rfl, issued⟩ := Prod.mk.inj answer
              exact .recorded undecided known issued held
      · next unheld =>
          split
          · next replaying => exact .behind undecided unheld replaying
          · next caughtUp =>
              split
              · next after error answer =>
                  obtain ⟨rfl, refused⟩ := Prod.mk.inj answer
                  exact .mismatch undecided error refused
              · next after known answer =>
                  obtain ⟨rfl, issued⟩ := Prod.mk.inj answer
                  exact .discovered undecided known issued unheld (Nat.le_of_not_lt caughtUp)

theorem now_timed (replay : Replay) (world : ReplayWorld H) : world.host.ledger.Timed replay (now replay world).1.host.ledger := by
  unfold now
  dsimp only
  split
  · next time recorded => exact .replayed time recorded
  · next past =>
      split
      · next time _ => exact .discovered time past
      · exact .discovered _ past

/-- A failed compensation discovers at most its own record. -/
theorem compensationFailed_ledger (replay : Replay) (index : Nat) (reason : JsValue)
    (world : ReplayWorld H) :
    (compensationFailed replay index reason world).host.ledger = world.host.ledger ∨
      (compensationFailed replay index reason world).host.ledger = { world.host.ledger with
        newCommands := world.host.newCommands ++
          [.recordCompensationFailure index (toRecordedError reason)] } := by
  unfold compensationFailed
  split
  · exact .inl rfl
  · split
    · exact .inl rfl
    · exact .inr rfl

theorem noteChoice_ledger (replay : Replay) (running : List (Nat × PromiseId)) (world : ReplayWorld H) :
    ∃ choices, world.host.cancelledChoices ≤ choices ∧ (noteChoice replay running world).host.ledger =
      { world.host.ledger with cancelledChoices := choices } := by
  unfold noteChoice
  split
  · exact ⟨_, Nat.le_succ _, rfl⟩
  · exact ⟨_, Nat.le_refl _, rfl⟩

/-- A replay never takes back what its ledger holds. -/
theorem replay_grows (replay : Replay) (start : Ledger) :
    ReplayInvariant replay fun world : ReplayWorld H => start.Extends world.host.ledger where
  frame before after same grown := same.ledger ▸ grown
  step cancelled stepType input world _ grown :=
    grown.trans (step_counted replay cancelled stepType input world _ rfl).extends
  sleep cancelled durationMs world _ grown := by
    cases accepted : durationMs.sleepMs with
    | none => exact sleep_refused replay cancelled durationMs world accepted ▸ grown
    | some duration =>
      obtain ⟨_, counted⟩ := sleep_counted replay cancelled durationMs world _ rfl duration accepted
      exact grown.trans counted.extends
  waitForSignal cancelled signalName world _ grown := by
    obtain ⟨deliveries, rejected, longer, -, same⟩ := waitForSignal_ledger replay cancelled signalName world
    rw [same]
    exact grown.trans { Ledger.Extends.refl world.host.ledger with rejected := longer }
  startChild cancelled workflowType input options world _ grown := by
    by_cases beyond : replay.options.childLimit < world.host.childSequence + 1
    · rw [startChild_refused replay cancelled workflowType input options world beyond]
      exact grown.trans { Ledger.Extends.refl world.host.ledger with
        issued := ⟨[], (List.append_nil _).symm, fun _ absent => nomatch absent⟩
        children := Nat.le_succ _ }
    · exact grown.trans
        (startChild_counted replay cancelled workflowType input options world _ rfl beyond).extends
  decidePatch patchId world grown := grown.trans (decidePatch_asked replay patchId world).extends
  now world grown := grown.trans (now_timed replay world).extends
  noteChoice running world grown := by
    obtain ⟨choices, more, same⟩ := noteChoice_ledger replay running world
    rw [same]
    exact grown.trans { Ledger.Extends.refl world.host.ledger with choices := more }
  compensationFailed index reason world grown := by
    rcases compensationFailed_ledger replay index reason world with same | pushed
    · exact same ▸ grown
    · rw [pushed]
      exact grown.trans { Ledger.Extends.refl world.host.ledger with commands := List.prefix_append _ _ }

/-- What a longer ledger inherits is kept by every call. -/
theorem ReplayInvariant.ofGrowth (replay : Replay) (holds : Ledger → Prop)
    (inherited : ∀ before after : Ledger, before.Extends after → holds before → holds after) :
    ReplayInvariant replay fun world : ReplayWorld H => holds world.host.ledger where
  frame _ _ same := inherited _ _ (same.ledger ▸ .refl _)
  step cancelled stepType input world allowed :=
    inherited _ _ ((replay_grows replay world.host.ledger).step cancelled stepType input world allowed (.refl _))
  sleep cancelled durationMs world allowed :=
    inherited _ _ ((replay_grows replay world.host.ledger).sleep cancelled durationMs world allowed (.refl _))
  waitForSignal cancelled signalName world allowed := inherited _ _
    ((replay_grows replay world.host.ledger).waitForSignal cancelled signalName world allowed (.refl _))
  startChild cancelled workflowType input options world allowed := inherited _ _
    ((replay_grows replay world.host.ledger).startChild cancelled workflowType input options world allowed
      (.refl _))
  decidePatch patchId world :=
    inherited _ _ ((replay_grows replay world.host.ledger).decidePatch patchId world (.refl _))
  now world := inherited _ _ ((replay_grows replay world.host.ledger).now world (.refl _))
  noteChoice running world :=
    inherited _ _ ((replay_grows replay world.host.ledger).noteChoice running world (.refl _))
  compensationFailed index reason world :=
    inherited _ _ ((replay_grows replay world.host.ledger).compensationFailed index reason world (.refl _))

end Calls

end DurableExecution.Workflow

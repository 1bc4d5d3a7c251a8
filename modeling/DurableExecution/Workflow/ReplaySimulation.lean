import DurableExecution.Workflow.ReplayLockstep

/-
This file shows call by call that a replay over a continued history follows the replay
that the history continues.
-/

namespace DurableExecution.Workflow

open EventLoop

section Calls

variable {H : Type} {short long : Replay} {final : Ledger} {rest : List WorkflowEvent}
variable {first second : ReplayWorld H}

/-- An outcome of the first history is the outcome of the second one too. -/
theorem Continues.outcome_some (continues : Continues short long final rest)
    (outcomeOf : WorkflowEvent → Option (Except JsValue JsValue)) (skip : Nat) (found : Nat × Except JsValue JsValue)
    (here : nthOutcome outcomeOf skip 0 short.history = some found) :
    nthOutcome outcomeOf skip 0 long.history = some found ∧ found.1 < short.history.length := by
  constructor
  · rw [continues.history]
    exact nthOutcome_append_some outcomeOf skip 0 _ _ found here
  · simpa using nthOutcome_lt outcomeOf skip 0 _ found here

/-- An outcome that only the second history holds lies beyond the first one. -/
theorem Continues.outcome_later (continues : Continues short long final rest)
    (outcomeOf : WorkflowEvent → Option (Except JsValue JsValue)) (skip : Nat) (found : Nat × Except JsValue JsValue)
    (absent : nthOutcome outcomeOf skip 0 short.history = none) (here : nthOutcome outcomeOf skip 0 long.history = some found) :
    short.history.length ≤ found.1 := by
  rw [continues.history] at here
  simpa using nthOutcome_append_none outcomeOf skip 0 _ _ found absent here

/-- A wait that the first history leaves open stays open or ends later in the second. -/
theorem Continues.open_follows (continues : Continues short long final rest)
    (lockstep : Lockstep (prolonged H short long final) first second)
    (outcomeOf : WorkflowEvent → Option (Except JsValue JsValue)) (skip : Nat)
    (absent : nthOutcome outcomeOf skip 0 short.history = none) :
    let answer := match nthOutcome outcomeOf skip 0 long.history with
      | some (place, outcome) => completedAt place outcome second
      | none => neverSettles second
    Lockstep (prolonged H short long final) (neverSettles first).1 answer.1 ∧
      (neverSettles first).2 = answer.2 := by
  cases ended : nthOutcome outcomeOf skip 0 long.history with
  | some found =>
    exact later_follows lockstep found.1 found.2 (continues.outcome_later outcomeOf skip found absent ended)
  | none => exact alloc_follows lockstep _ (fresh_within short)

/-- A wait that nothing cancels. -/
theorem Continues.wait_follows (continues : Continues short long final rest)
    (lockstep : Lockstep (prolonged H short long final) first second)
    (outcomeOf : WorkflowEvent → Option (Except JsValue JsValue)) (skip : Nat) :
    let one := match nthOutcome outcomeOf skip 0 short.history with
      | some (place, outcome) => completedAt place outcome first
      | none => neverSettles first
    let two := match nthOutcome outcomeOf skip 0 long.history with
      | some (place, outcome) => completedAt place outcome second
      | none => neverSettles second
    Lockstep (prolonged H short long final) one.1 two.1 ∧ one.2 = two.2 := by
  cases ended : nthOutcome outcomeOf skip 0 short.history with
  | some found =>
    obtain ⟨ended', inside⟩ := continues.outcome_some outcomeOf skip found ended
    rw [ended']
    exact completedAt_follows lockstep found.1 found.2 inside
  | none => exact continues.open_follows lockstep outcomeOf skip ended

theorem step_agrees (continues : Continues short long final rest)
    (lockstep : Lockstep (prolonged H short long final) first second) (cancelled : Bool) (stepType : String) (input : JsValue) :
    Agree (prolonged H short long final) (step short cancelled stepType input first) (step long cancelled stepType input second) := by
  by_cases kept : (step short cancelled stepType input first).1.host.ledger.Extends final
  swap
  · exact .inl kept
  right
  have counted := step_counted short cancelled stepType input first _ rfl
  have progress : Progress short long first.host second.host := lockstep.host
  obtain ⟨known, answer, answer'⟩ := continues.issue first.host.matcher second.host.matcher _ cancelled _
    progress.recorded progress.longer progress.issued counted.matcher (fun _ => counted.latest) kept
  have sameId : second.host.stepSequence = first.host.stepSequence := progress.stepSequence_eq
  have bumped := progress.shared (fun state => { state with stepSequence := state.stepSequence + 1 })
    (fun _ _ _ _ _ _ => rfl) (fun _ => rfl) (fun _ => rfl)
  rw [sameId] at bumped
  have seen := lockstep.withHost _ _ (bumped.retake _ { second.host.matcher with
    issued := (first.host.matcher.issue
      (.step ("step-" ++ toString (first.host.stepSequence + 1)) stepType input) cancelled).1.issued }
    (CommandMatcher.issue_recorded _ _ _) rfl rfl)
  unfold step at kept ⊢
  dsimp only [Workflow.issue, update] at kept ⊢
  rw [answer] at kept ⊢
  rw [sameId, answer']
  dsimp only at kept ⊢
  cases ended : nthOutcome (stepOutcome ("step-" ++ toString (first.host.stepSequence + 1)) stepType) 0 0
      short.history with
  | some found =>
    obtain ⟨ended', inside⟩ := continues.outcome_some _ 0 found ended
    rw [ended']
    exact completedAt_follows seen found.1 found.2 inside
  | none =>
    simp only [ended] at kept
    cases ended' : nthOutcome (stepOutcome ("step-" ++ toString (first.host.stepSequence + 1)) stepType) 0 0
        long.history with
    | some found =>
      have outside := continues.outcome_later _ 0 found ended ended'
      dsimp only
      cases cancelled with
      | false =>
        cases known with
        | true => exact later_follows seen found.1 found.2 outside
        | false =>
          have pushed := seen.withHost _ _ (seen.host.push (.scheduleStep
            ("step-" ++ toString (first.host.stepSequence + 1)) stepType input) rfl)
          exact later_follows pushed found.1 found.2 outside
      | true =>
        cases known with
        | true =>
          have flown := seen.withHost _ _ (seen.host.fly
            ("step-" ++ toString (first.host.stepSequence + 1)) second.host.inFlightSteps)
          exact later_follows flown found.1 found.2 outside
        | false =>
          have noted := kept.rejected.subset (List.mem_append_right _ (List.mem_singleton_self _))
          exact absurd ⟨stepType, by rw [ended']; nofun⟩ (continues.rejected _ noted)
    | none =>
      dsimp only
      cases cancelled with
      | false =>
        cases known with
        | true => exact alloc_follows seen _ (fresh_within short)
        | false =>
          have pushed := seen.withHost _ _ (seen.host.push (.scheduleStep
            ("step-" ++ toString (first.host.stepSequence + 1)) stepType input) rfl)
          exact alloc_follows pushed _ (fresh_within short)
      | true =>
        cases known with
        | true =>
          have flown := seen.withHost _ _ (seen.host.fly
            ("step-" ++ toString (first.host.stepSequence + 1)) (second.host.inFlightSteps ++
              ["step-" ++ toString (first.host.stepSequence + 1)]))
          exact alloc_follows flown _ (fresh_within short)
        | false =>
          have noted := seen.withHost _ _ (seen.host.shared (fun state => { state with
            rejectedWaits := state.rejectedWaits ++
              [.step ("step-" ++ toString (first.host.stepSequence + 1))] })
            (fun _ _ _ _ _ _ => rfl) (fun _ => rfl) (fun _ => rfl))
          exact alloc_follows noted _ (fresh_within short)

theorem sleep_agrees (continues : Continues short long final rest)
    (lockstep : Lockstep (prolonged H short long final) first second) (cancelled : Bool) (durationMs : JsNumber) :
    Agree (prolonged H short long final) (sleep short cancelled durationMs first) (sleep long cancelled durationMs second) := by
  by_cases kept : (sleep short cancelled durationMs first).1.host.ledger.Extends final
  swap
  · exact .inl kept
  right
  cases accepted : durationMs.sleepMs with
  | none =>
    simp only [sleep, accepted]
    exact alloc_follows lockstep _ (fresh_within short)
  | some duration =>
    obtain ⟨_, counted⟩ := sleep_counted short cancelled durationMs first _ rfl duration accepted
    have progress : Progress short long first.host second.host := lockstep.host
    obtain ⟨known, answer, answer'⟩ := continues.issue first.host.matcher second.host.matcher _ cancelled _
      progress.recorded progress.longer progress.issued counted.matcher (fun _ => counted.latest) kept
    have sameId : second.host.timerSequence = first.host.timerSequence := progress.timerSequence_eq
    have bumped := progress.shared (fun state => { state with timerSequence := state.timerSequence + 1 })
      (fun _ _ _ _ _ _ => rfl) (fun _ => rfl) (fun _ => rfl)
    rw [sameId] at bumped
    have seen := lockstep.withHost _ _ (bumped.retake _ { second.host.matcher with
      issued := (first.host.matcher.issue
        (.timer ("timer-" ++ toString (first.host.timerSequence + 1)) (some durationMs)) cancelled).1.issued }
      (CommandMatcher.issue_recorded _ _ _) rfl rfl)
    unfold sleep at kept ⊢
    simp only [accepted] at kept ⊢
    dsimp only [Workflow.issue, update] at kept ⊢
    rw [answer] at kept ⊢
    rw [sameId, answer']
    dsimp only at kept ⊢
    cases ended : nthOutcome (timerOutcome ("timer-" ++ toString (first.host.timerSequence + 1))) 0 0
        short.history with
    | some found =>
      obtain ⟨ended', inside⟩ := continues.outcome_some _ 0 found ended
      rw [ended']
      exact completedAt_follows seen found.1 found.2 inside
    | none =>
      simp only [ended] at kept
      cases cancelled with
      | true =>
        have noted := kept.rejected.subset (List.mem_append_right _ (List.mem_singleton_self _))
        have unended := continues.rejected _ noted
        simp only [Wait.endedBy, ne_eq, not_not] at unended
        rw [unended]
        have rejected := seen.withHost _ _ (seen.host.shared (fun state => { state with
          rejectedWaits := state.rejectedWaits ++
            [.timer ("timer-" ++ toString (first.host.timerSequence + 1))] })
          (fun _ _ _ _ _ _ => rfl) (fun _ => rfl) (fun _ => rfl))
        exact alloc_follows rejected _ (fresh_within short)
      | false =>
        have follows (started : ReplayWorld H)
            (related : Lockstep (prolonged H short long final) started
              { second with host := { second.host with
                timerSequence := first.host.timerSequence + 1
                matcher := { second.host.matcher with issued := (first.host.matcher.issue
                  (.timer ("timer-" ++ toString (first.host.timerSequence + 1)) (some durationMs))
                  false).1.issued } } }) :=
          continues.open_follows related (timerOutcome ("timer-" ++
            toString (first.host.timerSequence + 1))) 0 ended
        cases known with
        | true => exact follows _ seen
        | false =>
          dsimp only [readClock, update] at kept ⊢
          cases fires : (short.options.clock first.host.clockReads).after duration with
          | none =>
            simp only [fires] at kept
            have noted := kept.unrepresentable.subset
              (List.mem_append_right _ (List.mem_singleton_self _))
            rw [continues.representable] at noted
            exact absurd noted List.not_mem_nil
          | some fireAt =>
            have read := seen.withHost _ _
              (seen.host.read (first.host.clockReads + 1) second.host.clockReads)
            have pushed := read.withHost _ _ (read.host.push (.startTimer
              ("timer-" ++ toString (first.host.timerSequence + 1)) fireAt durationMs) rfl)
            exact follows _ pushed

theorem waitForSignal_agrees (continues : Continues short long final rest)
    (lockstep : Lockstep (prolonged H short long final) first second) (cancelled : Bool) (signalName : String) :
    Agree (prolonged H short long final) (waitForSignal short cancelled signalName first)
      (waitForSignal long cancelled signalName second) := by
  by_cases kept : (waitForSignal short cancelled signalName first).1.host.ledger.Extends final
  swap
  · exact .inl kept
  right
  have progress : Progress short long first.host second.host := lockstep.host
  have taken : second.host.signalSequences = first.host.signalSequences := progress.signalSequences_eq
  have bumped := lockstep.withHost _ _ (progress.shared (fun state => { state with
      signalSequences := Function.update state.signalSequences signalName
        (first.host.signalSequences signalName + 1) })
    (fun _ _ _ _ _ _ => rfl) (fun _ => rfl) (fun _ => rfl))
  unfold waitForSignal at kept ⊢
  dsimp only [update] at kept ⊢
  rw [show second.host.signalSequences signalName = first.host.signalSequences signalName by rw [taken]]
  cases ended : nthOutcome (signalOutcome signalName) (first.host.signalSequences signalName) 0
      short.history with
  | some found =>
    obtain ⟨ended', inside⟩ := continues.outcome_some _ _ found ended
    rw [ended']
    exact completedAt_follows bumped found.1 found.2 inside
  | none =>
    simp only [ended] at kept
    cases cancelled with
    | true =>
      have noted := kept.rejected.subset (List.mem_append_right _ (List.mem_singleton_self _))
      have unended := continues.rejected _ noted
      simp only [Wait.endedBy, Nat.add_sub_cancel, ne_eq, not_not] at unended
      rw [unended]
      have rejected := bumped.withHost _ _ (bumped.host.shared (fun state => { state with
        rejectedWaits := state.rejectedWaits ++
          [.signal signalName (first.host.signalSequences signalName + 1)] })
        (fun _ _ _ _ _ _ => rfl) (fun _ => rfl) (fun _ => rfl))
      exact alloc_follows rejected _ (fresh_within short)
    | false => exact continues.open_follows bumped _ _ ended

theorem startChild_agrees (continues : Continues short long final rest)
    (lockstep : Lockstep (prolonged H short long final) first second) (cancelled : Bool)
    (requested : cancelled = true → cancelRequested short.history = true)
    (workflowType : String) (input : JsValue) (options : ChildOptions) :
    let one := startChild short cancelled workflowType input options first
    let two := startChild long cancelled workflowType input options second
    (prolonged H short long final).lost one.1.host ∨
      (Lockstep (prolonged H short long final) one.1 two.1 ∧ one.2 = two.2) := by
  dsimp only
  by_cases kept :
      (startChild short cancelled workflowType input options first).1.host.ledger.Extends final
  swap
  · exact .inl kept
  right
  have progress : Progress short long first.host second.host := lockstep.host
  have sameId : second.host.childSequence = first.host.childSequence := progress.childSequence_eq
  have bumped := progress.shared (fun state => { state with childSequence := state.childSequence + 1 })
    (fun _ _ _ _ _ _ => rfl) (fun _ => rfl) (fun _ => rfl)
  by_cases beyond : short.options.childLimit < first.host.childSequence + 1
  · have beyond' : long.options.childLimit < second.host.childSequence + 1 := by
      rw [continues.childLimit, sameId]
      exact beyond
    rw [startChild_refused short cancelled workflowType input options first beyond,
      startChild_refused long cancelled workflowType input options second beyond', continues.childLimit]
    exact ⟨lockstep.withHost _ _ bumped, rfl⟩
  · have counted := startChild_counted short cancelled workflowType input options first _ rfl beyond
    obtain ⟨known, answer, answer'⟩ := continues.issue first.host.matcher second.host.matcher _ cancelled _
      progress.recorded progress.longer progress.issued counted.matcher (fun _ => counted.latest) kept
    rw [sameId] at bumped
    have seen := lockstep.withHost _ _ (bumped.retake _ { second.host.matcher with
      issued := (first.host.matcher.issue (.child ("child-" ++ toString (first.host.childSequence + 1))
        workflowType input) cancelled).1.issued } (CommandMatcher.issue_recorded _ _ _) rfl rfl)
    unfold startChild at kept ⊢
    dsimp only [Workflow.issue, update] at kept ⊢
    rw [if_neg beyond] at kept ⊢
    rw [sameId, continues.childLimit, if_neg beyond, answer']
    rw [answer] at kept ⊢
    dsimp only at kept ⊢
    let childId := "child-" ++ toString (first.host.childSequence + 1)
    cases cancelled with
    | true =>
      cases known with
      | false =>
        have noted := seen.withHost _ _ (seen.host.shared (fun state => { state with
          rejectedWaits := state.rejectedWaits ++
            [.child ("child-" ++ toString (first.host.childSequence + 1))] })
          (fun _ _ _ _ _ _ => rfl) (fun _ => rfl) (fun _ => rfl))
        exact ⟨noted, rfl⟩
      | true =>
        simp only [Bool.not_true, Bool.false_and, Bool.false_eq_true, ↓reduceIte, Bool.true_or] at kept ⊢
        cases ended : nthOutcome (childOutcome ("child-" ++ toString (first.host.childSequence + 1))) 0 0
            short.history with
        | some found =>
          obtain ⟨ended', inside⟩ := continues.outcome_some _ 0 found ended
          rw [ended']
          have follows := completedAt_follows seen found.1 found.2 inside
          exact ⟨follows.1, congrArg (Except.map (Prod.mk childId)) follows.2⟩
        | none =>
          simp only [ended] at kept
          have noted := kept.rejected.subset (List.mem_append_right _ (List.mem_singleton_self _))
          have unended := continues.rejected _ noted
          simp only [Wait.endedBy, ne_eq, not_not] at unended
          rw [unended]
          have rejected := seen.withHost _ _ (seen.host.shared (fun state => { state with
            rejectedWaits := state.rejectedWaits ++
              [.child ("child-" ++ toString (first.host.childSequence + 1))] })
            (fun _ _ _ _ _ _ => rfl) (fun _ => rfl) (fun _ => rfl))
          have follows := alloc_follows rejected
            ⟨.host, ⟨none, true⟩, .settled (.error cancelledError)⟩
            (unplaced_within short true fun _ => requested rfl)
          exact ⟨follows.1, congrArg (Except.map (Prod.mk childId)) follows.2⟩
    | false =>
      cases known with
      | true =>
        have follows := continues.wait_follows seen
          (childOutcome ("child-" ++ toString (first.host.childSequence + 1))) 0
        exact ⟨follows.1, congrArg (Except.map (Prod.mk childId)) follows.2⟩
      | false =>
        have pushed := seen.withHost _ _ (seen.host.push (.startChild
          ("child-" ++ toString (first.host.childSequence + 1)) workflowType input
          (options.parentClosePolicy.getD .cancel) options.runTimeoutMs options.executionTimeoutMs) rfl)
        have follows := continues.wait_follows pushed
          (childOutcome ("child-" ++ toString (first.host.childSequence + 1))) 0
        exact ⟨follows.1, congrArg (Except.map (Prod.mk childId)) follows.2⟩

/-- The second history holds every patch that the first replay issued. -/
theorem Continues.patch_recorded (continues : Continues short long final rest) (patchId : String)
    (member : CommandShape.patch patchId ∈ final.matcher.issued) : patchId ∈ recordedPatchIds long.history := by
  rw [mem_recordedPatchIds, continues.commands]
  obtain ⟨position, inside, placed⟩ := List.mem_iff_getElem.mp member
  by_cases replayed : position < (recordedCommands short.history).length
  · apply List.mem_append_left
    have same := continues.matched position (recordedCommands short.history)[position] (.patch patchId)
      (by rw [continues.recorded]; exact List.getElem?_eq_getElem replayed)
      (by rw [List.getElem?_eq_getElem inside, placed])
    have held : (recordedCommands short.history)[position] = .patch patchId := by
      cases shape : (recordedCommands short.history)[position] with
      | patch id =>
        rw [shape] at same
        simp only [sameCommand, beq_iff_eq] at same
        rw [same]
      | _ => simp [shape, sameCommand] at same
    exact held ▸ List.getElem_mem replayed
  · apply List.mem_append_right
    rw [List.mem_drop_iff_getElem]
    refine ⟨position - (recordedCommands short.history).length, by omega, ?_⟩
    rw [← placed]
    congr 1
    omega

/-- A patch that the second history adds was taken by the first replay. -/
theorem Continues.patch_taken (continues : Continues short long final rest) (patchId : String)
    (unheld : patchId ∉ recordedPatchIds short.history) (held : patchId ∈ recordedPatchIds long.history) :
    final.patchDecisions.lookup patchId = some true := by
  rw [mem_recordedPatchIds, continues.commands, List.mem_append, ← mem_recordedPatchIds] at held
  exact continues.patches patchId (List.mem_of_mem_drop (held.resolve_left unheld))

theorem Continues.commandCount (continues : Continues short long final rest) :
    recordedCommandCount short.history ≤ recordedCommandCount long.history := by
  rw [continues.history, recordedCommandCount, recordedCommandCount, List.countP_append]
  exact Nat.le_add_right _ _

theorem decidePatch_agrees (continues : Continues short long final rest)
    (lockstep : Lockstep (prolonged H short long final) first second) (patchId : String) :
    let one := decidePatch short patchId first
    let two := decidePatch long patchId second
    (prolonged H short long final).lost one.1.host ∨
      (Lockstep (prolonged H short long final) one.1 two.1 ∧ one.2 = two.2) := by
  dsimp only
  by_cases kept : (decidePatch short patchId first).1.host.ledger.Extends final
  swap
  · exact .inl kept
  right
  have progress : Progress short long first.host second.host := lockstep.host
  have asked := lockstep.withHost _ _ (progress.shared (fun state => { state with
      consultedPatches := state.consultedPatches ++ [patchId] })
    (fun _ _ _ _ _ _ => rfl) (fun _ => rfl) (fun _ => rfl))
  have remembered (started continued : ReplayWorld H) (useNewPath : Bool)
      (related : Lockstep (prolonged H short long final) started continued) :
      Lockstep (prolonged H short long final) (rememberPatch patchId useNewPath started)
        (rememberPatch patchId useNewPath continued) :=
    related.withHost _ _ (related.host.shared (fun state => { state with
        patchDecisions := state.patchDecisions ++ [(patchId, useNewPath)] })
      (fun _ _ _ _ _ _ => rfl) (fun _ => rfl) (fun _ => rfl))
  unfold decidePatch at kept ⊢
  dsimp only [Workflow.issue, update] at kept ⊢
  have sameDecisions : second.host.patchDecisions.lookup patchId = first.host.patchDecisions.lookup patchId := by
    rw [progress.patchDecisions_eq]
  have sameSum : second.host.stepSequence + second.host.timerSequence + second.host.childSequence =
      first.host.stepSequence + first.host.timerSequence + first.host.childSequence := by
    rw [progress.stepSequence_eq, progress.timerSequence_eq, progress.childSequence_eq]
  rw [sameDecisions]
  cases decided : first.host.patchDecisions.lookup patchId with
  | some useNewPath => exact ⟨asked, rfl⟩
  | none =>
    simp only [decided] at kept ⊢
    by_cases behind : patchId ∉ recordedPatchIds short.history ∧
        first.host.stepSequence + first.host.timerSequence + first.host.childSequence <
          recordedCommandCount short.history
    · -- a patch that was passed over is recorded nowhere
      rw [if_neg behind.1, if_pos behind.2] at kept ⊢
      have remembering : (first.host.patchDecisions ++ [(patchId, false)]).lookup patchId = some false := by
        simp [List.lookup_append, decided]
      have passed := lookup_of_prefix kept.patches remembering
      have unheld : patchId ∉ recordedPatchIds long.history := by
        intro held
        cases passed.symm.trans (continues.patch_taken patchId behind.1 held)
      rw [if_neg unheld, sameSum, if_pos (Nat.lt_of_lt_of_le behind.2 continues.commandCount)]
      exact ⟨remembered _ _ false asked, rfl⟩
    · -- otherwise the patch takes the next position
      have follows (after : Ledger) (grown : after.Extends final)
          (taken : after.matcher = (first.host.matcher.issue (.patch patchId) false).1) :=
        continues.issue first.host.matcher second.host.matcher (.patch patchId) false after
          progress.recorded progress.longer progress.issued taken nofun grown
      have seen := asked.withHost _ _ (asked.host.retake _ { second.host.matcher with
        issued := (first.host.matcher.issue (.patch patchId) false).1.issued }
        (CommandMatcher.issue_recorded _ _ _) rfl rfl)
      have held' (after : Ledger) (grown : after.Extends final)
          (taken : after.matcher = (first.host.matcher.issue (.patch patchId) false).1) :
          patchId ∈ recordedPatchIds long.history := by
        obtain ⟨later, finalIssued, _⟩ := grown.issued
        apply continues.patch_recorded
        rw [finalIssued, taken, CommandMatcher.issue_issued]
        simp
      cases result : (first.host.matcher.issue (.patch patchId) false).2 with
      | error mismatch =>
        rw [result] at kept
        have grown : ({ first.host.ledger with
            consultedPatches := first.host.consultedPatches ++ [patchId]
            matcher := (first.host.matcher.issue (.patch patchId) false).1 } : Ledger).Extends final := by
          split at kept
          · exact kept
          · next unheld =>
              rw [if_neg (fun less => behind ⟨unheld, less⟩)] at kept
              exact kept
        obtain ⟨known, answer, _⟩ := follows _ grown rfl
        cases result.symm.trans answer
      | ok known =>
        rw [result] at kept
        by_cases held : patchId ∈ recordedPatchIds short.history
        · rw [if_pos held] at kept ⊢
          obtain ⟨_, _, answer'⟩ := follows _ kept rfl
          rw [if_pos (held' _ kept rfl), answer']
          exact ⟨remembered _ _ true seen, rfl⟩
        · rw [if_neg held, if_neg (fun less => behind ⟨held, less⟩)] at kept ⊢
          obtain ⟨_, _, answer'⟩ := follows _ kept rfl
          rw [if_pos (held' _ kept rfl), answer']
          have pushed := seen.withHost _ _ (seen.host.push
            (.recordPatch patchId short.options.buildId) rfl)
          exact ⟨remembered _ _ true pushed, rfl⟩

/-- The second history holds the time that the first replay discovers next. -/
theorem Continues.time_recorded (continues : Continues short long final rest) {one : ReplayState H}
    (counted : (recordedTimes (one.newCommands.map commandToEvent)).length = one.timeCalls - (recordedTimes short.history).length)
    (time : Instant) (past : (recordedTimes short.history).length ≤ one.timeCalls)
    (grown : one.newCommands ++ [.recordTime time] <+: final.newCommands) : (recordedTimes long.history)[one.timeCalls]? = some time := by
  obtain ⟨later, whole⟩ := grown
  rw [continues.times, List.getElem?_append_right past, ← counted, ← whole]
  simp only [List.map_append, recordedTimes_append, List.append_assoc]
  rw [List.getElem?_append_right (Nat.le_refl _)]
  simp [recordedTimes, recordedTime, commandToEvent]

theorem now_agrees (continues : Continues short long final rest) (lockstep : Lockstep (prolonged H short long final) first second) :
    Agree (prolonged H short long final) (now short first) (now long second) := by
  by_cases kept : (now short first).1.host.ledger.Extends final
  swap
  · exact .inl kept
  right
  have progress : Progress short long first.host second.host := lockstep.host
  have sameCalls : second.host.timeCalls = first.host.timeCalls := progress.timeCalls_eq
  have counted := progress.times
  unfold now at kept ⊢
  dsimp only [update] at kept ⊢
  have sameIndex : (recordedTimes long.history)[second.host.timeCalls]? =
      (recordedTimes long.history)[first.host.timeCalls]? := by rw [sameCalls]
  rw [sameIndex]
  cases replayed : (recordedTimes short.history)[first.host.timeCalls]? with
  | some time =>
    have inside := (List.getElem?_eq_some_iff.mp replayed).1
    have replayed' : (recordedTimes long.history)[first.host.timeCalls]? = some time := by
      rw [continues.times, List.getElem?_append_left inside, replayed]
    rw [replayed']
    have ticked := lockstep.withHost _ _ (progress.tick first.host.newCommands (by omega))
    exact ⟨ticked, rfl⟩
  | none =>
    have past := List.getElem?_eq_none_iff.mp replayed
    have ticked (time : Instant) := lockstep.withHost _ _
      (progress.tick (first.host.newCommands ++ [.recordTime time]) (by
        have single : (recordedTimes ([.recordTime time].map commandToEvent)).length = 1 := rfl
        rw [List.map_append, recordedTimes_append, List.length_append, counted, single]
        omega))
    simp only [replayed] at kept ⊢
    cases triggered : short.options.triggeredAt with
    | some time =>
      simp only [triggered] at kept ⊢
      rw [continues.time_recorded counted time past kept.commands]
      exact ⟨ticked time, rfl⟩
    | none =>
      simp only [triggered] at kept ⊢
      dsimp only [readClock, update] at kept ⊢
      rw [continues.time_recorded counted _ past kept.commands]
      have discovered := ticked (short.options.clock first.host.clockReads)
      have read := discovered.withHost _ _
        (discovered.host.read (first.host.clockReads + 1) second.host.clockReads)
      exact ⟨read, rfl⟩

end Calls

section Helpers

variable {H : Type} {short long : Replay} {final : Ledger} {rest : List WorkflowEvent}
variable {first second : ReplayWorld H}

/-- A replay that is lost stays lost. -/
theorem replay_lost (replay : Replay) (final : Ledger) :
    ReplayInvariant replay fun world : ReplayWorld H => ¬ world.host.ledger.Extends final :=
  .ofGrowth replay (fun ledger => ¬ ledger.Extends final) fun _ _ grown lost kept => lost (grown.trans kept)

/-- A promise has its place in both histories, or only the second one reaches it. -/
theorem position_agrees (lockstep : Lockstep (prolonged H short long final) first second) (target : PromiseId) :
    ((first.tagOf target).bind WaitTag.completionPosition = (second.tagOf target).bind WaitTag.completionPosition ∧
      ∀ place, (second.tagOf target).bind WaitTag.completionPosition = some place → place < short.history.length) ∨
    ((first.tagOf target).bind WaitTag.completionPosition = none ∧
      ∃ place, (second.tagOf target).bind WaitTag.completionPosition = some place ∧ short.history.length ≤ place) := by
  unfold World.tagOf
  rcases lockstep.lookup target with ⟨absent, absent'⟩ | ⟨one, two, found, found', alike⟩
  · rw [absent, absent']
    exact .inl ⟨rfl, nofun⟩
  · rw [found, found']
    rcases alike.tag.position with ⟨same, within⟩ | ⟨open', place, placed, beyond⟩
    · refine .inl ⟨same, ?_⟩
      intro place placed
      by_contra outside
      exact within ⟨place, placed, Nat.le_of_not_lt outside⟩
    · exact .inr ⟨open', place, placed, beyond⟩

theorem cancelled_agrees (lockstep : Lockstep (prolonged H short long final) first second) (target : PromiseId) :
    (first.tagOf target).map WaitTag.cancelled = (second.tagOf target).map WaitTag.cancelled := by
  unfold World.tagOf
  rcases lockstep.lookup target with ⟨absent, absent'⟩ | ⟨one, two, found, found', alike⟩
  · rw [absent, absent']
  · rw [found, found']
    exact congrArg some alike.tag.cancelled

theorem cancelled_requested (lockstep : Lockstep (prolonged H short long final) first second)
    (target : PromiseId) (cancelled : ((second.tagOf target).map WaitTag.cancelled).getD false = true) :
    cancelRequested short.history = true := by
  unfold World.tagOf at cancelled
  rcases lockstep.lookup target with ⟨_, absent⟩ | ⟨one, two, _, found, alike⟩
  · rw [absent] at cancelled
    cases cancelled
  · rw [found] at cancelled
    exact alike.tag.requested cancelled

/-- Both replays find the same earliest place, unless only the second history has one. -/
theorem earliest_agrees (lockstep : Lockstep (prolonged H short long final) first second) (running : List (Nat × PromiseId)) :
    (∃ winner place, earliest first running = some (winner, place) ∧
        earliest second running = some (winner, place) ∧ place < short.history.length) ∨
    (earliest first running = none ∧ ∀ winner place, earliest second running = some (winner, place) → short.history.length ≤ place ∧
          (second.tagOf winner.2).bind WaitTag.completionPosition = some place) := by
  induction running with
  | nil => exact .inr ⟨rfl, nofun⟩
  | cons branch others ih =>
    simp only [earliest]
    rcases position_agrees lockstep branch.2 with ⟨same, within⟩ | ⟨open', place, placed, beyond⟩
    · rw [same]
      cases placed : (second.tagOf branch.2).bind WaitTag.completionPosition with
      | none => simpa only using ih
      | some place =>
        have inside := within place placed
        rcases ih with ⟨winner, best, one, two, earlier⟩ | ⟨none', later⟩
        · left
          simp only [one, two]
          split
          · exact ⟨winner, best, rfl, rfl, earlier⟩
          · exact ⟨branch, place, rfl, rfl, inside⟩
        · left
          refine ⟨branch, place, by simp only [none'], ?_, inside⟩
          cases best : earliest second others with
          | none => rfl
          | some answer =>
            have outside := (later answer.1 answer.2 best).1
            simp only
            rw [if_neg (by omega)]
    · rw [open', placed]
      rcases ih with ⟨winner, best, one, two, earlier⟩ | ⟨none', later⟩
      · left
        refine ⟨winner, best, by simp only [one], ?_, earlier⟩
        simp only [two]
        rw [if_pos (by omega)]
      · right
        refine ⟨by simp only [none'], ?_⟩
        intro winner best found
        cases answer : earliest second others with
        | none =>
          simp only [answer, Option.some.injEq, Prod.mk.injEq] at found
          obtain ⟨rfl, rfl⟩ := found
          exact ⟨beyond, placed⟩
        | some other =>
          simp only [answer] at found
          split at found
          · cases found
            exact later _ _ answer
          · simp only [Option.some.injEq, Prod.mk.injEq] at found
            obtain ⟨rfl, rfl⟩ := found
            exact ⟨beyond, placed⟩

/-- A place beyond the first history freezes its promise. -/
theorem frozen_of_place (target : PromiseId) (place : Nat) (placed : (second.tagOf target).bind WaitTag.completionPosition = some place)
    (beyond : short.history.length ≤ place) (promise : Promise H (Operation H) JsValue (Resumption H) WaitTag)
    (found : second.promises[target]? = some promise) : promise.Frozen (prolonged H short long final) := by
  simp only [World.tagOf, found, Option.map_some, Option.bind_some] at placed
  exact ⟨place, placed, beyond⟩

theorem select_agrees (lockstep : Lockstep (prolonged H short long final) first second) (branches : List PromiseId) :
    Agree (prolonged H short long final) (select branches first) (select branches second) := by
  right
  have allocated := lockstep.alloc ⟨.derived, default, .pending []⟩ ⟨.derived, default, .pending []⟩
    (alike_same _ (fresh_within short))
  have sameId := lockstep.alloc_id (⟨.derived, default, .pending []⟩ :
    Promise H (Operation H) JsValue (Resumption H) WaitTag) ⟨.derived, default, .pending []⟩
  have answered := congrArg (fun target => (Except.ok (JsValue.promise target) : Except JsValue JsValue)) sameId
  unfold select
  dsimp only
  rcases earliest_agrees lockstep (branches.zipIdx.map Prod.swap) with
    ⟨winner, place, one, two, _⟩ | ⟨none', later⟩
  · rw [one, two, sameId]
    exact ⟨allocated.react winner.2 _, rfl⟩
  · rw [none', sameId]
    cases answer : earliest second (branches.zipIdx.map Prod.swap) with
    | none => exact ⟨allocated, answered⟩
    | some found =>
      obtain ⟨beyond, placed⟩ := later found.1 found.2 answer
      refine ⟨allocated.react_right found.1.2 _ ?_, answered⟩
      intro promise held
      apply frozen_of_place found.1.2 found.2 _ beyond promise held
      obtain ⟨tag, known, position⟩ := Option.bind_eq_some_iff.mp placed
      rw [(second.alloc_undisturbed ⟨.derived, default, .pending []⟩).tags _ tag known]
      exact position

theorem startTasks_agrees (left right : Nat → ReplayEffect H)
    (agree : ∀ index first second, Lockstep (prolonged H short long final) first second →
      Agree (prolonged H short long final) (left index first) (right index second))
    (lost : ∀ index (world : ReplayWorld H), ¬ world.host.ledger.Extends final →
      ¬ (left index world).1.host.ledger.Extends final)
    (room : Nat) (state : ParallelState H) (first second : ReplayWorld H)
    (lockstep : Lockstep (prolonged H short long final) first second) :
    let one := startTasks left room state first
    let two := startTasks right room state second
    (prolonged H short long final).lost one.1.host ∨
      (Lockstep (prolonged H short long final) one.1 two.1 ∧ one.2 = two.2) := by
  induction room generalizing state first second with
  | zero => exact .inr ⟨lockstep, rfl⟩
  | succ room ih =>
    simp only [startTasks]
    split
    · rcases agree state.next first second lockstep with gone | ⟨related, same⟩
      · left
        generalize left state.next first = answer at gone
        obtain ⟨world, outcome⟩ := answer
        cases outcome with
        | error thrown => exact gone
        | ok value =>
          cases value
          case promise =>
            exact ReplayWalk.startTasks left lost room _ world gone
          all_goals exact gone
      · generalize left state.next first = one at related same
        generalize right state.next second = two at related same
        obtain ⟨world, outcome⟩ := one
        obtain ⟨world', outcome'⟩ := two
        obtain rfl : outcome = outcome' := same
        cases outcome with
        | error thrown => exact .inr ⟨related, rfl⟩
        | ok value =>
          cases value
          case promise => exact ih _ world world' related
          all_goals exact .inr ⟨related, rfl⟩
    · exact .inr ⟨lockstep, rfl⟩

theorem parallelLoop_agrees (left right : Nat → ReplayEffect H)
    (agree : ∀ index first second, Lockstep (prolonged H short long final) first second →
      Agree (prolonged H short long final) (left index first) (right index second))
    (lost : ∀ index (world : ReplayWorld H), ¬ world.host.ledger.Extends final → ¬ (left index world).1.host.ledger.Extends final)
    (state : ParallelState H) (first second : ReplayWorld H) (lockstep : Lockstep (prolonged H short long final) first second) :
    (prolonged H short long final).lost (parallelLoop left state first).host ∨
      Lockstep (prolonged H short long final) (parallelLoop left state first) (parallelLoop right state second) := by
  unfold parallelLoop
  split
  · rcases startTasks_agrees left right agree lost (state.taskCount - state.next) state first second
      lockstep with gone | ⟨related, same⟩
    · left
      generalize startTasks left (state.taskCount - state.next) state first = answer at gone
      obtain ⟨world, outcome⟩ := answer
      cases outcome with
      | error thrown =>
        simp only [prolonged, World.settle_host]
        exact gone
      | ok later => exact gone
    · right
      generalize startTasks left (state.taskCount - state.next) state first = one at related same
      generalize startTasks right (state.taskCount - state.next) state second = two at related same
      obtain ⟨world, outcome⟩ := one
      obtain ⟨world', outcome'⟩ := two
      obtain rfl : outcome = outcome' := same
      cases outcome with
      | error thrown => exact related.settle_unheld .derived nofun _ _
      | ok later => exact related.enqueue _
  · exact .inr (lockstep.settle_unheld .derived nofun _ _)

theorem runParallel_agrees (left right : Nat → ReplayEffect H)
    (agree : ∀ index first second, Lockstep (prolonged H short long final) first second →
      Agree (prolonged H short long final) (left index first) (right index second))
    (lost : ∀ index (world : ReplayWorld H), ¬ world.host.ledger.Extends final →
      ¬ (left index world).1.host.ledger.Extends final)
    (tasks : Nat → WorkflowCode H) (taskCount : Nat) (concurrency : Option JsNumber)
    (mode : ParallelMode) (first second : ReplayWorld H)
    (lockstep : Lockstep (prolonged H short long final) first second) :
    let one := runParallel left tasks taskCount concurrency mode first
    let two := runParallel right tasks taskCount concurrency mode second
    (prolonged H short long final).lost one.2.host ∨
      (Lockstep (prolonged H short long final) one.2 two.2 ∧ one.1 = two.1) := by
  have allocated := lockstep.alloc ⟨.derived, default, .pending []⟩ ⟨.derived, default, .pending []⟩
    (alike_same _ (fresh_within short))
  have sameId := lockstep.alloc_id (⟨.derived, default, .pending []⟩ :
    Promise H (Operation H) JsValue (Resumption H) WaitTag) ⟨.derived, default, .pending []⟩
  unfold runParallel
  dsimp only
  rw [sameId]
  split
  · exact .inr ⟨allocated.settle_unheld .derived nofun _ _, rfl⟩
  · rcases parallelLoop_agrees left right agree lost _ _ _ allocated with gone | related
    · exact .inl gone
    · exact .inr ⟨related, rfl⟩

theorem all_agrees (left right : Nat → ReplayEffect H) (agree : ∀ index first second, Lockstep (prolonged H short long final) first second →
      Agree (prolonged H short long final) (left index first) (right index second))
    (lost : ∀ index (world : ReplayWorld H), ¬ world.host.ledger.Extends final → ¬ (left index world).1.host.ledger.Extends final)
    (tasks : Nat → WorkflowCode H) (taskCount : Nat) (concurrency : Option JsNumber) (first second : ReplayWorld H)
    (lockstep : Lockstep (prolonged H short long final) first second) :
    Agree (prolonged H short long final) (all left tasks taskCount concurrency first) (all right tasks taskCount concurrency second) := by
  have allocated := lockstep.alloc ⟨.derived, default, .pending []⟩ ⟨.derived, default, .pending []⟩
    (alike_same _ (fresh_within short))
  have sameId := lockstep.alloc_id (⟨.derived, default, .pending []⟩ :
    Promise H (Operation H) JsValue (Resumption H) WaitTag) ⟨.derived, default, .pending []⟩
  unfold all
  dsimp only
  rw [sameId]
  rcases runParallel_agrees left right agree lost tasks taskCount concurrency .all _ _ allocated with
    gone | ⟨related, same⟩
  · left
    simp only [returned, prolonged, World.react_host]
    exact gone
  · rw [same]
    exact .inr ⟨related.react _ _, rfl⟩

theorem compensationFailed_agrees (continues : Continues short long final rest) (index : Nat)
    (reason : JsValue) (first second : ReplayWorld H) (lockstep : Lockstep (prolonged H short long final) first second) :
    (prolonged H short long final).lost (compensationFailed short index reason first).host ∨
      Lockstep (prolonged H short long final) (compensationFailed short index reason first)
        (compensationFailed long index reason second) := by
  by_cases kept : (compensationFailed short index reason first).host.ledger.Extends final
  swap
  · exact .inl kept
  right
  unfold compensationFailed at kept ⊢
  split
  · exact lockstep.withHost _ _ (lockstep.host.shared (fun state => { state with
      settled := some (.failed reason) }) (fun _ _ _ _ _ _ => rfl) (fun _ => rfl) (fun _ => rfl))
  · next plain =>
      rw [if_neg plain] at kept
      by_cases recorded : index ∈ short.history.filterMap recordedCompensationFailure
      · have recorded' : index ∈ long.history.filterMap recordedCompensationFailure := by
          rw [continues.history, List.filterMap_append]
          exact List.mem_append_left _ recorded
        rw [if_pos recorded, if_pos recorded']
        exact lockstep
      · rw [if_neg recorded] at kept ⊢
        have pushed : .recordCompensationFailure index (toRecordedError reason) ∈ final.newCommands :=
          kept.commands.subset (List.mem_append_right _ (List.mem_singleton_self _))
        have recorded' : index ∈ long.history.filterMap recordedCompensationFailure := by
          rw [continues.history, List.filterMap_append, List.filterMap_append, List.filterMap_map]
          apply List.mem_append_right
          apply List.mem_append_left
          exact List.mem_filterMap.mpr ⟨_, pushed, rfl⟩
        rw [if_pos recorded']
        exact lockstep.withHost _ _ (lockstep.host.push _ rfl)

theorem runCompensations_agrees (continues : Continues short long final rest) (left right : WorkflowCode H → ReplayEffect H)
    (agree : ∀ body first second, Lockstep (prolonged H short long final) first second →
      Agree (prolonged H short long final) (left body first) (right body second))
    (lost : ∀ body (world : ReplayWorld H), ¬ world.host.ledger.Extends final → ¬ (left body world).1.host.ledger.Extends final)
    (remaining : Nat) (first second : ReplayWorld H) (lockstep : Lockstep (prolonged H short long final) first second) :
    (prolonged H short long final).lost (runCompensations short left remaining first).host ∨
      Lockstep (prolonged H short long final) (runCompensations short left remaining first)
        (runCompensations long right remaining second) := by
  induction remaining generalizing first second with
  | zero =>
    exact .inr (lockstep.withHost _ _ (lockstep.host.shared (fun state => { state with
      compensated := true }) (fun _ _ _ _ _ _ => rfl) (fun _ => rfl) (fun _ => rfl)))
  | succ index ih =>
    have sameBodies : second.host.compensations = first.host.compensations :=
      Progress.compensations_eq lockstep.host
    simp only [runCompensations, sameBodies]
    cases found : first.host.compensations[index]? with
    | none => exact ih first second lockstep
    | some compensation =>
      simp only
      rcases agree compensation first second lockstep with gone | ⟨related, same⟩
      · left
        generalize left compensation first = answer at gone
        obtain ⟨world, outcome⟩ := answer
        cases outcome with
        | error reason =>
          exact (replay_lost short final).toWalk.runCompensations left lost index _
            ((replay_lost short final).compensationFailed index reason world gone)
        | ok value =>
          cases value
          case promise =>
            simp only [prolonged, World.react_host]
            exact gone
          all_goals exact gone
      · generalize left compensation first = one at related same
        generalize right compensation second = two at related same
        obtain ⟨world, outcome⟩ := one
        obtain ⟨world', outcome'⟩ := two
        obtain rfl : outcome = outcome' := same
        cases outcome with
        | error reason =>
          rcases compensationFailed_agrees continues index reason world world' related with
            gone | noted
          · exact .inl ((replay_lost short final).toWalk.runCompensations left lost index _ gone)
          · exact ih _ _ noted
        | ok value =>
          cases value
          case promise => exact .inr (related.react _ _)
          all_goals exact .inr (related.enqueue _)

/-- A waiting helper goes on with the same task in both replays, or it waits in the
second one for a task that only the second history ends. -/
theorem chosen_agrees (continues : Continues short long final rest)
    (left right : WorkflowCode H → ReplayEffect H) (outcome : Except JsValue JsValue)
    (state : ParallelState H) (first second : ReplayWorld H) (lockstep : Lockstep (prolonged H short long final) first second) :
    (prolonged H short long final).lost (resumption short (.chosen state) outcome left first).host ∨
      Lockstep (prolonged H short long final) (resumption short (.chosen state) outcome left first)
        (resumption long (.chosen state) outcome right second) := by
  simp only [resumption, chooseNext]
  rcases earliest_agrees lockstep state.running with ⟨winner, place, one, two, _⟩ | ⟨none', later⟩
  · simp only [one, two, noteChoice, Option.isNone_some, Bool.and_false, Bool.false_eq_true, ↓reduceIte]
    exact .inr (lockstep.react _ _)
  · have sameTags : (fun task : Nat × PromiseId =>
        ((first.tagOf task.2).map WaitTag.cancelled).getD false) =
        fun task => ((second.tagOf task.2).map WaitTag.cancelled).getD false :=
      funext fun task => by rw [cancelled_agrees lockstep task.2]
    simp only [none', noteChoice, sameTags]
    cases ended : state.running.find? fun task =>
        ((second.tagOf task.2).map WaitTag.cancelled).getD false with
    | some task =>
      left
      have flagged : ((second.tagOf task.2).map WaitTag.cancelled).getD false = true := by
        simpa using List.find?_some ended
      have requested := cancelled_requested lockstep task.2 flagged
      simp only [requested, Option.isNone_none, Bool.and_true, ↓reduceIte, prolonged, World.react_host]
      intro kept
      have counted := kept.choices
      rw [continues.choices] at counted
      exact absurd counted (Nat.not_succ_le_zero _)
    | none =>
      right
      cases answer : earliest second state.running with
      | none => exact lockstep
      | some found =>
        obtain ⟨beyond, placed⟩ := later found.1 found.2 answer
        simp only [Option.isNone_some, Bool.and_false, Bool.false_eq_true, ↓reduceIte]
        exact lockstep.react_right found.1.2 _ (frozen_of_place found.1.2 found.2 placed beyond)

theorem draw_agrees (lockstep : Lockstep (prolonged H short long final) first second) (value : Nat → JsValue) :
    Agree (prolonged H short long final) (draw value first) (draw value second) := by
  have sameDraws : second.host.draws = first.host.draws := Progress.draws_eq lockstep.host
  refine .inr ⟨lockstep.withHost _ _ (lockstep.host.shared
    (fun state => { state with draws := state.draws + 1 })
    (fun _ _ _ _ _ _ => rfl) (fun _ => rfl) (fun _ => rfl)), ?_⟩
  simp only [draw, sameDraws]

theorem continueAsNew_agrees (continues : Continues short long final rest)
    (lockstep : Lockstep (prolonged H short long final) first second) (input : JsValue) :
    Agree (prolonged H short long final) (continueAsNew short input first) (continueAsNew long input second) := by
  right
  unfold continueAsNew
  rw [continues.cancelled]
  by_cases cancelled : cancelRequested short.history = true
  · rw [if_pos cancelled, if_pos cancelled]
    exact alloc_follows lockstep _ (fresh_within short)
  · rw [if_neg cancelled, if_neg cancelled]
    exact alloc_follows (lockstep.withHost _ _ (lockstep.host.shared
      (fun state => { state with continuation := some (state.continuation.getD input) })
      (fun _ _ _ _ _ _ => rfl) (fun _ => rfl) (fun _ => rfl))) _ (fresh_within short)

end Helpers

/-- The replay over the continued history follows the first one call by call. -/
theorem replay_simulates (H : Type) {short long : Replay} {final : Ledger} {rest : List WorkflowEvent}
    (continues : Continues short long final rest) : Simulates (prolonged H short long final) (replayHost H short) (replayHost H long) where
  fresh := fresh_prolongs short
  thawed := (fresh_within short).reached
  lost := (replay_lost short final).preserves
  call operation callbacks left right agree lost first second lockstep := by
    have sameCancel : cancelRequested long.history = cancelRequested short.history := continues.cancelled
    have requested (cancelled : (operation.context == .workflow && cancelRequested short.history) = true) :
        cancelRequested short.history = true := (Bool.and_eq_true_iff.mp cancelled).2
    unfold replayHost contextCall
    dsimp only
    rw [sameCancel, continues.random]
    cases operation.call with
    | step stepType input => exact step_agrees continues lockstep _ stepType input
    | sleep durationMs => exact sleep_agrees continues lockstep _ durationMs
    | waitForSignal signalName => exact waitForSignal_agrees continues lockstep _ signalName
    | select branches => exact select_agrees lockstep branches
    | setQueryHandler queryName handler =>
      exact .inr ⟨lockstep.withHost _ _ (lockstep.host.shared
        (fun state => { state with queryHandlers := state.queryHandlers ++ [(queryName, handler)] })
        (fun _ _ _ _ _ _ => rfl) (fun _ => rfl) (fun _ => rfl)), rfl⟩
    | onCancel =>
      exact .inr ⟨lockstep.withHost _ _ (lockstep.host.shared
        (fun state => { state with compensations := state.compensations ++ [callbacks 0] })
        (fun _ _ _ _ _ _ => rfl) (fun _ => rfl) (fun _ => rfl)), rfl⟩
    | startChild workflowType input options =>
      rcases startChild_agrees continues lockstep _ requested workflowType input options with
        gone | ⟨related, same⟩
      · exact .inl gone
      · exact .inr ⟨related, congrArg (Except.map childHandle) same⟩
    | executeChild workflowType input options =>
      rcases startChild_agrees continues lockstep _ requested workflowType input options with
        gone | ⟨related, same⟩
      · exact .inl gone
      · exact .inr ⟨related, congrArg (Except.map Prod.snd) same⟩
    | all taskCount concurrency =>
      exact all_agrees left right agree lost callbacks taskCount concurrency first second lockstep
    | allSettled taskCount concurrency =>
      rcases runParallel_agrees left right agree lost callbacks taskCount concurrency .allSettled first
        second lockstep with gone | ⟨related, same⟩
      · exact .inl gone
      · exact .inr ⟨related, congrArg (fun target => Except.ok (JsValue.promise target)) same⟩
    | continueAsNew input =>
      exact continueAsNew_agrees continues lockstep input
    | patched patchId =>
      rcases decidePatch_agrees continues lockstep patchId with gone | ⟨related, same⟩
      · exact .inl gone
      · exact .inr ⟨related, congrArg (Except.map JsValue.bool) same⟩
    | deprecatePatch patchId =>
      rcases decidePatch_agrees continues lockstep patchId with gone | ⟨related, same⟩
      · exact .inl gone
      · exact .inr ⟨related, congrArg (Except.map fun _ => JsValue.undefined) same⟩
    | now => exact now_agrees continues lockstep
    | random => exact draw_agrees lockstep (fun count => .number (short.options.random.random count))
    | uuid => exact draw_agrees lockstep (fun count => .string (short.options.random.uuid count))
  resume resume outcome left right agree lost first second lockstep := by
    cases resume with
    | handlerSettled =>
      have settles (settled : Settled) := lockstep.withHost _ _ (lockstep.host.shared
        (fun state => { state with settled := some settled, handlerDone := true })
        (fun _ _ _ _ _ _ => rfl) (fun _ => rfl) (fun _ => rfl))
      exact .inr (settles _)
    | chosen state => exact chosen_agrees continues left right outcome state first second lockstep
    | taskSettled state index =>
      simp only [replayHost, resumption]
      split
      · exact .inr (lockstep.settle_unheld .derived (by rintro ⟨⟩) _ _)
      · exact parallelLoop_agrees _ _ (fun task => agree (state.tasks task))
          (fun task => lost (state.tasks task)) _ first second lockstep
    | allDone result => exact .inr (lockstep.settle_unheld .derived (by rintro ⟨⟩) _ _)
    | selected result winner => exact .inr (lockstep.settle_unheld .derived (by rintro ⟨⟩) _ _)
    | compensated remaining =>
      simp only [replayHost, resumption]
      cases outcome with
      | ok value =>
        exact runCompensations_agrees continues left right agree lost remaining first second lockstep
      | error reason =>
        rcases compensationFailed_agrees continues remaining reason first second lockstep with
          gone | noted
        · exact .inl ((replay_lost short final).toWalk.runCompensations left lost remaining _ gone)
        · exact runCompensations_agrees continues left right agree lost remaining _ _ noted

end DurableExecution.Workflow

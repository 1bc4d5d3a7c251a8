import DurableExecution.Workflow.ReplaySimulation

/-
This file runs two replays of one run side by side: the replay over the continued
history passes through the end of the replay it continues.
-/

namespace DurableExecution.Workflow

open EventLoop

section Deliveries

variable {H : Type}

/-- Each wait that the feed will end has the tag of its place. -/
def Tagged (world : ReplayWorld H) : Prop :=
  ∀ delivery ∈ world.host.deliveries,
    (world.tagOf delivery.2.1).bind WaitTag.completionPosition = some delivery.1

theorem Tagged.frame {before after : ReplayWorld H} (tagged : Tagged before) (deliveries : after.host.deliveries = before.host.deliveries)
    (tags : ∀ target tag, before.tagOf target = some tag → after.tagOf target = some tag) : Tagged after := by
  intro delivery member
  obtain ⟨tag, known, position⟩ := Option.bind_eq_some_iff.mp (tagged delivery (deliveries ▸ member))
  rw [tags _ tag known]
  exact position

/-- The counts of waits for signals and the tags are as before, and the waits keep to their tags. -/
structure KeepsWaits (before after : ReplayWorld H) : Prop where
  signals : after.host.signalSequences = before.host.signalSequences
  tags : ∀ target tag, before.tagOf target = some tag → after.tagOf target = some tag
  tagged : Tagged before → Tagged after

/-- Where only other parts of the state change. -/
theorem KeepsWaits.same {before after : ReplayWorld H} (signals : after.host.signalSequences = before.host.signalSequences)
    (deliveries : after.host.deliveries = before.host.deliveries)
    (tags : ∀ target tag, before.tagOf target = some tag → after.tagOf target = some tag) : KeepsWaits before after :=
  ⟨signals, tags, fun tagged => tagged.frame deliveries tags⟩

theorem KeepsWaits.returned {before after : ReplayWorld H} (keeps : KeepsWaits before after)
    (promise : Promise H (Operation H) JsValue (Resumption H) WaitTag) : KeepsWaits before (returned (after.alloc promise)).1 := by
  have allocated := (after.alloc_undisturbed promise).tags
  refine ⟨keeps.signals, fun target tag known => allocated target tag (keeps.tags target tag known), fun tagged => ?_⟩
  exact (keeps.tagged tagged).frame rfl allocated

theorem KeepsWaits.completedAt {before after : ReplayWorld H} (keeps : KeepsWaits before after) (place : Nat)
    (outcome : Except JsValue JsValue) : KeepsWaits before (completedAt place outcome after).1 := by
  unfold Workflow.completedAt
  dsimp only
  split
  · exact keeps.returned _
  · have allocated := keeps.returned ⟨.host, ⟨some place, false⟩, .pending []⟩
    refine ⟨allocated.signals, allocated.tags, fun tagged delivery member => ?_⟩
    rcases List.mem_append.mp member with old | new
    · exact allocated.tagged tagged delivery old
    · rw [List.mem_singleton.mp new]
      exact congrArg (Option.bind · WaitTag.completionPosition) (after.alloc_tagOf _)

theorem step_keepsWaits (replay : Replay) (cancelled : Bool) (stepType : String) (input : JsValue) (world : ReplayWorld H) :
    KeepsWaits world (step replay cancelled stepType input world).1 := by
  unfold step
  dsimp only [issue]
  split
  · next answer =>
      obtain ⟨rfl, -⟩ := Prod.mk.inj answer
      exact .same rfl rfl fun _ _ => id
  · next recorded answer =>
      obtain ⟨rfl, -⟩ := Prod.mk.inj answer
      split
      · apply KeepsWaits.completedAt
        exact .same rfl rfl fun _ _ => id
      · split
        · apply KeepsWaits.returned
          exact .same rfl rfl fun _ _ => id
        · apply KeepsWaits.returned
          cases recorded <;> cases cancelled <;> exact .same rfl rfl fun _ _ => id

theorem sleep_keepsWaits (replay : Replay) (cancelled : Bool) (durationMs : JsNumber) (world : ReplayWorld H) :
    KeepsWaits world (sleep replay cancelled durationMs world).1 := by
  unfold sleep
  cases durationMs.sleepMs with
  | none =>
    apply KeepsWaits.returned
    exact .same rfl rfl fun _ _ => id
  | some duration =>
    dsimp only [issue]
    split
    · next answer =>
        obtain ⟨rfl, -⟩ := Prod.mk.inj answer
        exact .same rfl rfl fun _ _ => id
    · next answer =>
        obtain ⟨rfl, -⟩ := Prod.mk.inj answer
        split
        · apply KeepsWaits.completedAt
          exact .same rfl rfl fun _ _ => id
        · split
          · apply KeepsWaits.returned
            exact .same rfl rfl fun _ _ => id
          · split
            · apply KeepsWaits.returned
              exact .same rfl rfl fun _ _ => id
            · split
              · exact .same rfl rfl fun _ _ => id
              · apply KeepsWaits.returned
                exact .same rfl rfl fun _ _ => id

theorem startChild_keepsWaits (replay : Replay) (cancelled : Bool) (workflowType : String) (input : JsValue)
    (options : ChildOptions) (world : ReplayWorld H) :
    KeepsWaits world (startChild replay cancelled workflowType input options world).1 := by
  unfold startChild
  dsimp only [issue]
  split
  · exact .same rfl rfl fun _ _ => id
  · split
    · next answer =>
        obtain ⟨rfl, -⟩ := Prod.mk.inj answer
        exact .same rfl rfl fun _ _ => id
    · next recorded answer =>
        obtain ⟨rfl, -⟩ := Prod.mk.inj answer
        split
        · exact .same rfl rfl fun _ _ => id
        · dsimp only
          split
          · apply KeepsWaits.completedAt
            cases recorded <;> exact .same rfl rfl fun _ _ => id
          · split <;>
            · apply KeepsWaits.returned
              cases recorded <;> exact .same rfl rfl fun _ _ => id

theorem decidePatch_keepsWaits (replay : Replay) (patchId : String) (world : ReplayWorld H) :
    KeepsWaits world (decidePatch replay patchId world).1 := by
  unfold decidePatch
  dsimp only [issue]
  split
  · exact .same rfl rfl fun _ _ => id
  · split
    · split <;>
      · next answer =>
          obtain ⟨rfl, -⟩ := Prod.mk.inj answer
          exact .same rfl rfl fun _ _ => id
    · split
      · exact .same rfl rfl fun _ _ => id
      · split <;>
        · next answer =>
            obtain ⟨rfl, -⟩ := Prod.mk.inj answer
            exact .same rfl rfl fun _ _ => id

theorem now_keepsWaits (replay : Replay) (world : ReplayWorld H) : KeepsWaits world (now replay world).1 := by
  unfold now
  dsimp only
  split
  · exact .same rfl rfl fun _ _ => id
  · split <;> exact .same rfl rfl fun _ _ => id

theorem noteChoice_keepsWaits (replay : Replay) (running : List (Nat × PromiseId)) (world : ReplayWorld H) :
    KeepsWaits world (noteChoice replay running world) := by
  unfold noteChoice
  split <;> exact .same rfl rfl fun _ _ => id

theorem compensationFailed_keepsWaits (replay : Replay) (index : Nat) (reason : JsValue) (world : ReplayWorld H) :
    KeepsWaits world (compensationFailed replay index reason world) := by
  unfold compensationFailed
  split
  · exact .same rfl rfl fun _ _ => id
  · split <;> exact .same rfl rfl fun _ _ => id

/-- Every call of a replay keeps the waits and their tags together. -/
theorem replay_tagged (replay : Replay) : ReplayInvariant replay (Tagged (H := H)) where
  frame before after same tagged := tagged.frame (congrArg Ledger.deliveries same.ledger) same.tags
  step _ _ _ _ _ := (step_keepsWaits ..).tagged
  sleep _ _ _ _ := (sleep_keepsWaits ..).tagged
  waitForSignal cancelled signalName world _ tagged := by
    let counted : ReplayWorld H := update (fun state => { state with
      signalSequences := Function.update state.signalSequences signalName (world.host.signalSequences signalName + 1) }) world
    have same : KeepsWaits counted counted := .same rfl rfl fun _ _ => id
    have counted' : Tagged counted := tagged.frame rfl fun _ _ => id
    unfold waitForSignal
    dsimp only
    split
    · exact (same.completedAt _ _).tagged counted'
    · split <;> exact (same.returned _).tagged counted'
  startChild _ _ _ _ _ _ := (startChild_keepsWaits ..).tagged
  decidePatch _ _ := (decidePatch_keepsWaits ..).tagged
  now _ := (now_keepsWaits ..).tagged
  noteChoice _ _ := (noteChoice_keepsWaits ..).tagged
  compensationFailed _ _ _ := (compensationFailed_keepsWaits ..).tagged

/-- The settled waits leave the others tagged. -/
theorem Tagged.release {world : ReplayWorld H} (tagged : Tagged world) (place : Nat) : Tagged (release place world) := by
  have same := release_sameLedger place world
  intro delivery member
  have deliveries : (Workflow.release place world).host.deliveries =
      world.host.deliveries.filter fun delivery => delivery.1 != place :=
    congrArg Ledger.deliveries same.ledger
  rw [deliveries] at member
  obtain ⟨tag, known, position⟩ :=
    Option.bind_eq_some_iff.mp (tagged delivery (List.mem_of_mem_filter member))
  rw [same.tags _ tag known]
  exact position

end Deliveries

section Feeds

variable {H : Type} {short long : Replay} {final : Ledger} {rest : List WorkflowEvent}
variable {first second : ReplayWorld H}

/-- Feeding one place settles the same waits in both replays. -/
theorem Progress.feed {one two : ReplayState H} (progress : Progress short long one two) (place : Nat)
    (inside : place < short.history.length) :
    Progress short long
      { one with
        fedUpTo := place
        deliveries := one.deliveries.filter fun delivery => delivery.1 != place }
      { two with
        fedUpTo := place
        deliveries := two.deliveries.filter fun delivery => delivery.1 != place } := by
  cases progress with
  | same matcher deliveries clockReads inFlightSteps recorded longer issued pending fed inFlight times =>
    refine .same { one with
        fedUpTo := place
        deliveries := one.deliveries.filter fun delivery => delivery.1 != place }
      matcher (deliveries.filter fun delivery => delivery.1 != place) clockReads inFlightSteps recorded
      longer issued ?_ (Int.ofNat_lt.mpr inside) inFlight times
    rw [pending, List.filter_filter, List.filter_filter]
    exact congrArg (deliveries.filter ·) (funext fun delivery => Bool.and_comm _ _)

theorem Progress.pending {one two : ReplayState H} (progress : Progress short long one two) :
    one.deliveries = two.deliveries.filter fun delivery => delivery.1 < short.history.length := by
  cases progress
  assumption

/-- The second replay feeds every place of the first history before a later one. -/
theorem nextDelivery_agrees (lockstep : Lockstep (prolonged H short long final) first second)
    (place : Nat) (due : nextDelivery first = some place) : nextDelivery second = some place ∧ place < short.history.length := by
  have pending := Progress.pending lockstep.host
  unfold nextDelivery at due ⊢
  rw [List.min?_eq_some_iff] at due ⊢
  obtain ⟨member, earliest⟩ := due
  obtain ⟨delivery, held, rfl⟩ := List.mem_map.mp member
  rw [pending] at held
  have inside : delivery.1 < short.history.length := by simpa using (List.mem_filter.mp held).2
  refine ⟨⟨List.mem_map_of_mem (List.mem_of_mem_filter held), ?_⟩, inside⟩
  intro other listed
  obtain ⟨delivery', held', rfl⟩ := List.mem_map.mp listed
  by_cases inside' : delivery'.1 < short.history.length
  · apply earliest
    rw [pending]
    exact List.mem_map_of_mem (List.mem_filter.mpr ⟨held', by simpa using inside'⟩)
  · omega

/-- The due waits settle one by one in both replays. -/
theorem settleAll_follows (due : List (Nat × PromiseId × Except JsValue JsValue)) (first second : ReplayWorld H)
    (lockstep : Lockstep (prolonged H short long final) first second)
    (free : ∀ delivery ∈ due, ∀ tag, second.tagOf delivery.2.1 = some tag → ¬ tag.Beyond short) : Lockstep (prolonged H short long final)
      (due.foldl (fun world delivery => world.settle .host delivery.2.1 delivery.2.2) first)
      (due.foldl (fun world delivery => world.settle .host delivery.2.1 delivery.2.2) second) := by
  induction due generalizing first second with
  | nil => exact lockstep
  | cons delivery others ih =>
    apply ih
    · apply lockstep.settle
      intro promise found _ frozen
      refine free delivery List.mem_cons_self promise.tag ?_ frozen
      simp only [World.tagOf, found, Option.map_some]
    · intro other member tag known
      rw [World.settle_tagOf] at known
      exact free other (List.mem_cons_of_mem _ member) tag known

theorem release_follows (lockstep : Lockstep (prolonged H short long final) first second)
    (tagged : Tagged first) (place : Nat) (inside : place < short.history.length) :
    Lockstep (prolonged H short long final) (release place first) (release place second) := by
  have sameDue : (second.host.deliveries.filter fun delivery => delivery.1 == place) =
      first.host.deliveries.filter fun delivery => delivery.1 == place := by
    rw [Progress.pending lockstep.host, List.filter_filter]
    apply List.filter_congr
    intro delivery _
    by_cases here : delivery.1 = place
    · simp [here, inside]
    · simp [here]
  have fed := lockstep.withHost _ _ (Progress.feed lockstep.host place inside)
  unfold release
  rw [sameDue]
  apply settleAll_follows _ _ _ fed
  intro delivery member tag known beyond
  obtain ⟨held, here⟩ := List.mem_filter.mp member
  have placed := tagged delivery held
  rcases position_agrees lockstep delivery.2.1 with ⟨same, within⟩ | ⟨open', _⟩
  · obtain ⟨place', position, outside⟩ := beyond
    have inside' := within place' (by
      rw [show second.tagOf delivery.2.1 = some tag from known, Option.bind_some, position])
    omega
  · cases open'.symm.trans placed

/-- The replay over the continued history feeds all that the first one feeds, and then goes on. -/
theorem feeds_follow (continues : Continues short long final rest) {firstFinal secondFinal : ReplayWorld H}
    (lockstep : Lockstep (prolonged H short long final) first second) (tagged : Tagged first)
    (feeds : Feeds short first firstFinal) (kept : firstFinal.host.ledger.Extends final) (feeds' : Feeds long second secondFinal) :
    ∃ middle, Lockstep (prolonged H short long final) firstFinal middle ∧ Feeds long middle secondFinal := by
  induction feeds generalizing second with
  | done => exact ⟨second, lockstep, feeds'⟩
  | next world quiet firstFinal place fuel due drained rest' ih =>
    obtain ⟨due', inside⟩ := nextDelivery_agrees lockstep place due
    have released := release_follows lockstep tagged place inside
    cases feeds' with
    | done _ fed => cases fed.symm.trans due'
    | next _ quiet' _ place' fuel' due'' drained' rest'' =>
      obtain rfl : place = place' := Option.some.inj (due'.symm.trans due'')
      rcases (replay_simulates H continues).drain fuel _ quiet _ released drained with gone | ⟨last, ran, related⟩
      · exact absurd (rest'.extends.trans kept) gone
      · obtain rfl := drain_unique _ fuel fuel' _ _ _ ran drained'
        exact ih related ((replay_tagged short).preserves.drain fuel _ quiet drained (tagged.release place))
          kept rest''

/-- Both replays start in the same way. -/
theorem initial_lockstep (handler : WorkflowHandler H) : Lockstep (prolonged H short long final) (initialWorld handler short.history)
      (initialWorld handler long.history) where
  heap := rfl
  jobs := rfl
  size := rfl
  promises := nofun
  host := .same (initialReplayState H short.history) (createCommandMatcher.record (recordedCommands long.history))
    [] 0 [] rfl rfl rfl rfl (Int.lt_of_lt_of_le (by decide : (-1 : Int) < 0) (Int.natCast_nonneg _))
    (fun _ => rfl) (Nat.zero_sub _).symm

/-- Both replays of a run start the handler in the same way. -/
theorem replayed_begins (continues : Continues short long final rest) {handler : WorkflowHandler H}
    {input : JsValue} {firstFinal : ReplayWorld H} (one : Replayed short handler input firstFinal)
    (kept : firstFinal.host.ledger.Extends final) : ∃ started, startHandler long handler input = (started, .ok (.promise one.result)) ∧
      Lockstep (prolonged H short long final) one.started started := by
  have quietKept := one.feeds.extends.trans kept
  have startedKept (lost : ¬ one.started.host.ledger.Extends final) : False := by
    refine absurd quietKept ((replay_lost short final).preserves.drain one.fuel _ _ one.drained ?_)
    simpa only [World.react_host] using lost
  have started := (replay_simulates H continues).run (handler.body input) _ _ (initial_lockstep handler)
  rw [show run (replayHost H short) (handler.body input) (initialWorld handler short.history) = _ from one.begins]
    at started
  obtain ⟨related, same⟩ := started.resolve_left startedKept
  exact ⟨_, Prod.ext rfl same.symm, related⟩

/-- The replay over the continued history passes through the end of the first replay. -/
theorem replayed_follows (continues : Continues short long final rest) {handler : WorkflowHandler H}
    {input : JsValue} {firstFinal secondFinal : ReplayWorld H}
    (one : Replayed short handler input firstFinal) (two : Replayed long handler input secondFinal)
    (kept : firstFinal.host.ledger.Extends final) :
    ∃ middle, Lockstep (prolonged H short long final) firstFinal middle ∧ Feeds long middle secondFinal := by
  obtain ⟨started, begins, related⟩ := replayed_begins continues one kept
  obtain ⟨rfl, same⟩ := Prod.mk.inj (two.begins.symm.trans begins)
  simp only [Except.ok.injEq, JsValue.promise.injEq] at same
  have waiting := related.react one.result (.host .handlerSettled)
  rw [← same] at waiting
  rcases (replay_simulates H continues).drain one.fuel _ one.quiet _ waiting (same ▸ one.drained)
    with gone | ⟨last, ran, quiet⟩
  · exact absurd (one.feeds.extends.trans kept) gone
  · obtain rfl := drain_unique _ one.fuel two.fuel _ _ _ ran two.drained
    have tagged : Tagged one.quiet := by
      refine (replay_tagged short).preserves.drain one.fuel _ _ one.drained ?_
      refine (replay_tagged short).frame _ _ (.ofUndisturbed (World.react_undisturbed _ _ _)) ?_
      have begun := (replay_tagged short).preserves.run (handler.body input)
        (initialWorld handler short.history) nofun
      rw [show run (replayHost H short) (handler.body input) (initialWorld handler short.history) = _ from
        one.begins] at begun
      exact begun
    exact feeds_follow continues quiet tagged one.feeds kept two.feeds

end Feeds

end DurableExecution.Workflow

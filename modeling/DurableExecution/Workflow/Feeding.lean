import DurableExecution.Workflow.ReplayGrowth

/-
This file describes how a replay is fed: place by place, with the code running dry in
between, and without the fuel that bounds the loops of the model.
-/

namespace DurableExecution.Workflow

open EventLoop

section Feeding

variable {H : Type}

/-- A replay that has run dry is fed until no wait is left that the history ends. -/
inductive Feeds (replay : Replay) : ReplayWorld H → ReplayWorld H → Prop where
  | done (world : ReplayWorld H) (fed : nextDelivery world = none) : Feeds replay world world
  | next (world quiet final : ReplayWorld H) (place fuel : Nat)
      (due : nextDelivery world = some place)
      (drained : drain (replayHost H replay) fuel (release place world) = some quiet)
      (rest : Feeds replay quiet final) : Feeds replay world final

theorem feedHistory_feeds (replay : Replay) (fuel rounds : Nat) (world final : ReplayWorld H)
    (fed : feedHistory replay fuel rounds world = some final) : Feeds replay world final := by
  induction rounds generalizing world with
  | zero =>
    unfold feedHistory at fed
    split at fed
    · next nothing =>
        cases fed
        exact .done _ nothing
    · cases fed
    · next impossible => cases impossible
  | succ rounds ih =>
    unfold feedHistory at fed
    split at fed
    · next nothing =>
        cases fed
        exact .done _ nothing
    · next impossible => cases impossible
    · next place rounds' due same =>
        cases same
        obtain ⟨quiet, drained, rest⟩ := Option.bind_eq_some_iff.mp fed
        exact .next world quiet final place fuel due drained (ih quiet rest)

/-- Two feeds of one replay end in the same world. -/
theorem Feeds.unique {replay : Replay} {world left right : ReplayWorld H}
    (one : Feeds replay world left) (two : Feeds replay world right) : left = right := by
  induction one with
  | done world fed =>
    cases two with
    | done _ _ => rfl
    | next _ quiet _ place fuel due => cases fed.symm.trans due
  | next world quiet final place fuel due drained rest ih =>
    cases two with
    | done _ fed => cases fed.symm.trans due
    | next _ quiet' _ place' fuel' due' drained' rest' =>
      obtain rfl : place = place' := Option.some.inj (due.symm.trans due')
      obtain rfl := drain_unique _ fuel fuel' _ _ _ drained drained'
      exact ih rest'

/-- A replay that ran dry settles into a world without a microtask. -/
theorem Feeds.quiet {replay : Replay} {world final : ReplayWorld H} (feeds : Feeds replay world final)
    (before : world.jobs = []) : final.jobs = [] := by
  induction feeds with
  | done => exact before
  | next world quiet final place fuel due drained rest ih => exact ih (drain_jobs _ fuel _ _ drained)

theorem Feeds.fed {replay : Replay} {world final : ReplayWorld H} (feeds : Feeds replay world final) : nextDelivery final = none := by
  induction feeds with
  | done world fed => exact fed
  | next world quiet final place fuel due drained rest ih => exact ih

/-- A feed ends with fuel and rounds enough. -/
theorem Feeds.rounds {replay : Replay} {world final : ReplayWorld H} (feeds : Feeds replay world final) :
    ∃ bound, ∀ fuel rounds, bound ≤ fuel → bound ≤ rounds → feedHistory replay fuel rounds world = some final := by
  induction feeds with
  | done world fed =>
    refine ⟨0, fun fuel rounds _ _ => ?_⟩
    cases rounds <;> simp only [feedHistory, fed]
  | next world quiet final place fuel due drained rest ih =>
    obtain ⟨bound, ends⟩ := ih
    refine ⟨fuel + bound + 1, fun more rounds enough left => ?_⟩
    obtain ⟨rounds, rfl⟩ := Nat.exists_eq_add_of_le' (Nat.le_trans (Nat.le_add_left 1 (fuel + bound)) left)
    obtain ⟨extra, rfl⟩ := Nat.exists_eq_add_of_le (by omega : fuel ≤ more)
    rw [feedHistory.eq_def]
    dsimp only
    rw [due]
    dsimp only
    rw [drain_more _ fuel extra _ _ drained]
    exact ends _ rounds (by omega) (by omega)

/-- How the engine keeps the end of a handler. -/
def Settled.of : Except JsValue JsValue → Settled
  | .ok result => .completed result
  | .error reason => .failed (toError reason)

/-- The parts of a settled replay: its start, the microtasks up to the first wait, and
the feed. -/
structure Replayed (replay : Replay) (handler : WorkflowHandler H) (input : JsValue)
    (final : ReplayWorld H) where
  started : ReplayWorld H
  result : PromiseId
  begins : startHandler replay handler input = (started, .ok (.promise result))
  quiet : ReplayWorld H
  fuel : Nat
  drained : drain (replayHost H replay) fuel (started.react result (.host .handlerSettled)) = some quiet
  feeds : Feeds replay quiet final

theorem settle_parts (replay : Replay) (fuel : Nat) (world final : ReplayWorld H) (settled : settle replay fuel world = some final) :
    ∃ quiet, drain (replayHost H replay) fuel world = some quiet ∧ Feeds replay quiet final := by
  obtain ⟨quiet, drained, fed⟩ := Option.bind_eq_some_iff.mp settled
  exact ⟨quiet, drained, feedHistory_feeds replay fuel fuel quiet final fed⟩

/-- A replay without a cancellation is its start, its microtasks and its feed. -/
theorem replayHistory_replayed (fuel : Nat) (replay : Replay) (handler : WorkflowHandler H)
    (input : JsValue) (final : ReplayWorld H) (open' : cancelRequested replay.history = false)
    (replayed : replayHistory fuel replay handler input = some (.ok final)) : Nonempty (Replayed replay handler input final) := by
  unfold replayHistory at replayed
  split at replayed
  · cases replayed
  · next started result begins =>
      obtain ⟨quiet, settled, answer⟩ := Option.bind_eq_some_iff.mp replayed
      simp only [compensationsDue, open', Bool.false_and, Bool.false_eq_true, ↓reduceIte,
        Option.some.injEq, Except.ok.injEq] at answer
      subst answer
      obtain ⟨first, drained, feeds⟩ := settle_parts replay fuel _ _ settled
      exact ⟨⟨started, result, begins, first, fuel, drained, feeds⟩⟩
  · cases replayed

/-- What a replay without a cancellation settles into is what its decision is made from. -/
theorem Replayed.decides {replay : Replay} {handler : WorkflowHandler H} {input : JsValue} {final : ReplayWorld H}
    (replayed : Replayed replay handler input final) (open' : cancelRequested replay.history = false) :
    ∃ fuel, runDecisionLoop fuel replay handler input = some (decideFrom replay final) := by
  obtain ⟨bound, ends⟩ := replayed.feeds.rounds
  have settled : settle replay (replayed.fuel + bound)
      (replayed.started.react replayed.result (.host .handlerSettled)) = some final := by
    rw [settle, drain_more _ _ bound _ _ replayed.drained]
    exact ends _ _ (Nat.le_add_left _ _) (Nat.le_add_left _ _)
  refine ⟨replayed.fuel + bound, ?_⟩
  rw [runDecisionLoop, replayHistory, replayed.begins]
  dsimp only
  rw [settled]
  simp only [compensationsDue, open', Bool.false_and, Bool.false_eq_true, ↓reduceIte, Option.bind_some, Option.map_some, Except.bind]

end Feeding

section Invariants

variable {H : Type} {replay : Replay} {holds : ReplayWorld H → Prop}

/-- The settling of the due waits touches no ledger. -/
theorem release_sameCalls (next : Nat) (world : ReplayWorld H) :
    SameCalls (update (fun state => { state with
      fedUpTo := next
      deliveries := state.deliveries.filter fun delivery => delivery.1 != next }) world)
      (release next world) := by
  unfold release
  generalize (world.host.deliveries.filter fun delivery => delivery.1 == next) = due
  generalize update _ world = fed
  induction due generalizing fed with
  | nil => exact .ofUndisturbed (.refl fed)
  | cons delivery rest ih => exact .trans (.ofUndisturbed (World.settle_undisturbed _ _ _ _)) (ih _)

theorem release_sameLedger (next : Nat) (world : ReplayWorld H) :
    SameLedger (update (fun state => { state with
      fedUpTo := next
      deliveries := state.deliveries.filter fun delivery => delivery.1 != next }) world)
      (release next world) :=
  (release_sameCalls next world).toSameLedger

/-- What every call and every feed keeps holds until the replay has settled. -/
theorem ReplayWalk.feeds (walk : ReplayWalk replay holds)
    (released : ∀ next world, nextDelivery world = some next → holds world → holds (release next world))
    {world final : ReplayWorld H} (feeds : Feeds replay world final) (before : holds world) : holds final := by
  induction feeds with
  | done => exact before
  | next world quiet final place fuel due drained rest ih =>
    exact ih (walk.preserves.drain fuel _ quiet drained (released place world due before))

theorem ReplayInvariant.feeds (invariant : ReplayInvariant replay holds)
    (released : ∀ next world, nextDelivery world = some next → holds world → holds (release next world))
    {world final : ReplayWorld H} (feeds : Feeds replay world final) (before : holds world) : holds final :=
  invariant.toWalk.feeds released feeds before

theorem ReplayInvariant.replayed (invariant : ReplayInvariant replay holds)
    (released : ∀ next world, nextDelivery world = some next → holds world → holds (release next world))
    {handler : WorkflowHandler H} {input : JsValue} {final : ReplayWorld H} (replayed : Replayed replay handler input final)
    (before : holds (initialWorld handler replay.history)) : holds final := by
  have started := invariant.preserves.run (handler.body input) _ before
  rw [show run (replayHost H replay) (handler.body input) (initialWorld handler replay.history) =
    (replayed.started, .ok (.promise replayed.result)) from replayed.begins] at started
  have waiting := invariant.frame _ _ (.ofUndisturbed
    (World.react_undisturbed replayed.result (.host .handlerSettled) replayed.started)) started
  have quiet := invariant.preserves.drain replayed.fuel _ _ replayed.drained waiting
  exact invariant.feeds released replayed.feeds quiet

/-- What every call and every feed keeps holds at the end of a replay, cancelled or not. -/
theorem ReplayWalk.ends (walk : ReplayWalk replay holds)
    (released : ∀ next world, nextDelivery world = some next → holds world → holds (release next world))
    {fuel : Nat} {handler : WorkflowHandler H} {input : JsValue} {final : ReplayWorld H}
    (replayed : replayHistory fuel replay handler input = some (.ok final))
    (before : holds (initialWorld handler replay.history)) : holds final := by
  have settled (world last : ReplayWorld H) (ran : settle replay fuel world = some last)
      (kept : holds world) : holds last := by
    obtain ⟨quiet, drained, feeds⟩ := settle_parts replay fuel world last ran
    exact walk.feeds released feeds (walk.preserves.drain fuel world quiet drained kept)
  unfold replayHistory at replayed
  split at replayed
  · cases replayed
  · next started result begins =>
      obtain ⟨quiet, ran, ended⟩ := Option.bind_eq_some_iff.mp replayed
      have begun := walk.preserves.run (handler.body input) _ before
      rw [show run (replayHost H replay) (handler.body input) (initialWorld handler replay.history) =
        (started, .ok (.promise result)) from begins] at begun
      have kept := settled _ quiet ran
        (walk.frame _ _ (.ofUndisturbed (World.react_undisturbed _ _ _)) begun)
      split at ended
      · obtain ⟨last, ran', same⟩ := Option.map_eq_some_iff.mp ended
        cases same
        exact settled _ final ran' (walk.runCompensations _
          (fun body world => walk.preserves.run body world) _ _ kept)
      · cases ended
        exact kept
  · cases replayed

theorem ReplayInvariant.ends (invariant : ReplayInvariant replay holds)
    (released : ∀ next world, nextDelivery world = some next → holds world → holds (release next world))
    {fuel : Nat} {handler : WorkflowHandler H} {input : JsValue} {final : ReplayWorld H}
    (replayed : replayHistory fuel replay handler input = some (.ok final))
    (before : holds (initialWorld handler replay.history)) : holds final :=
  invariant.toWalk.ends released replayed before

/-- A feed extends the ledger. -/
theorem Feeds.extends {world final : ReplayWorld H} (feeds : Feeds replay world final) : world.host.ledger.Extends final.host.ledger := by
  refine (replay_grows replay world.host.ledger).feeds ?_ feeds (.refl _)
  intro next fed due grown
  rw [(release_sameLedger next fed).ledger]
  exact grown.trans { Ledger.Extends.refl fed.host.ledger with }

end Invariants

end DurableExecution.Workflow

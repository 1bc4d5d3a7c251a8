import DurableExecution.Workflow.Continuation
import DurableExecution.Workflow.Delivery
import DurableExecution.Workflow.Ownership

/-
This file lists the jobs that a replay performs. The replay of a continued history performs the
jobs of the first replay, in their order, and then others.
-/

namespace DurableExecution.Workflow

open EventLoop

section Traces

variable {H : Type} {replay short long : Replay} {final : Ledger} {rest : List WorkflowEvent}
  {world first second after : ReplayWorld H} {jobs trace : List (ReplayJob H)}

/-- A replay performs its jobs one by one, and is fed where none is left. -/
inductive Performs (replay : Replay) : ReplayWorld H → List (ReplayJob H) → ReplayWorld H → Prop where
  | done (world : ReplayWorld H) : Performs replay world [] world
  | job {world final : ReplayWorld H} {job : ReplayJob H} {jobs trace : List (ReplayJob H)} (queued : world.jobs = job :: jobs)
      (onward : Performs replay (perform (replayHost H replay) job { world with jobs := jobs }) trace final) :
      Performs replay world (job :: trace) final
  | feed {world final : ReplayWorld H} {place : Nat} {trace : List (ReplayJob H)} (quiet : world.jobs = [])
      (due : nextDelivery world = some place) (onward : Performs replay (release place world) trace final) :
      Performs replay world trace final

theorem Performs.trans {more : List (ReplayJob H)} (one : Performs replay world trace first) (two : Performs replay first more after) :
    Performs replay world (trace ++ more) after := by
  induction one with
  | done => exact two
  | job queued onward ih => exact .job queued (ih two)
  | feed quiet due onward ih => exact .feed quiet due (ih two)

theorem drain_performs (fuel : Nat) (drained : drain (replayHost H replay) fuel world = some after) :
    ∃ trace, Performs replay world trace after := by
  induction fuel generalizing world with
  | zero =>
    cases queued : world.jobs with
    | nil =>
      rw [drain_quiet _ 0 world queued] at drained
      cases drained
      exact ⟨[], .done _⟩
    | cons job rest => simp [drain, queued] at drained
  | succ fuel ih =>
    cases queued : world.jobs with
    | nil =>
      rw [drain_quiet _ (fuel + 1) world queued] at drained
      cases drained
      exact ⟨[], .done _⟩
    | cons job rest =>
      rw [drain_step _ fuel world job rest queued] at drained
      obtain ⟨trace, onward⟩ := ih drained
      exact ⟨job :: trace, .job queued onward⟩

theorem Feeds.performs (feeds : Feeds replay world after) (quiet : world.jobs = []) :
    ∃ trace, Performs replay world trace after ∧ after.jobs = [] ∧ nextDelivery after = none := by
  induction feeds with
  | done world fed => exact ⟨[], .done world, quiet, fed⟩
  | next world middle final place fuel due drained rest ih =>
    obtain ⟨one, ran⟩ := drain_performs fuel drained
    obtain ⟨two, onward, ends⟩ := ih (drain_jobs _ fuel _ _ drained)
    exact ⟨one ++ two, .feed quiet due (ran.trans onward), ends⟩

/-- The whole of a replay, from the world in which its handler has run. -/
theorem Replayed.performs {handler : WorkflowHandler H} {input : JsValue} (replayed : Replayed replay handler input after) :
    ∃ trace, Performs replay (replayed.started.react replayed.result (.host .handlerSettled)) trace after ∧ after.jobs = [] ∧
      nextDelivery after = none := by
  obtain ⟨one, ran⟩ := drain_performs replayed.fuel replayed.drained
  obtain ⟨two, onward, ends⟩ := replayed.feeds.performs (drain_jobs _ replayed.fuel _ _ replayed.drained)
  exact ⟨one ++ two, ran.trans onward, ends⟩

theorem Performs.tagged (performs : Performs replay world trace after) (before : Tagged world) : Tagged after := by
  induction performs with
  | done => exact before
  | job queued onward ih => exact ih ((replay_tagged replay).preserves.perform _ _ before)
  | feed quiet due onward ih => exact ih (before.release _)

/-- The whole of a replay hears of the history in order. -/
theorem Performs.delivered (performs : Performs replay world trace after) (tagged : Tagged world) (before : Delivered world) :
    Delivered after := by
  induction performs with
  | done => exact before
  | job queued onward ih =>
    exact ih ((replay_tagged replay).preserves.perform _ _ tagged) (Delivered.isKept.perform replay _ (fun resume _ _ => resume.free_all)
      ⟨before.waits, before.ahead⟩)
  | feed quiet due onward ih => exact ih (tagged.release _) (before.release tagged due)

/-- Whatever a replay has done, nobody knows a promise that is not made yet. -/
theorem Performs.fresh (performs : Performs replay world trace after) (before : Fresh world) : Fresh after := by
  induction performs with
  | done => exact before
  | job queued onward ih => exact ih (before.perform replay queued)
  | feed quiet due onward ih => exact ih (before.release _)

theorem Performs.extends (performs : Performs replay world trace after) : world.host.ledger.Extends after.host.ledger := by
  induction performs with
  | done world => exact .refl _
  | @job world final job jobs trace queued onward ih =>
    exact ((replay_grows replay world.host.ledger).preserves.perform job { world with jobs := jobs } (.refl _)).trans ih
  | @feed world final place trace quiet due onward ih =>
    refine Ledger.Extends.trans ?_ ih
    rw [(release_sameLedger place world).ledger]
    exact { Ledger.Extends.refl world.host.ledger with }

/-- The first job that a replay with a started handler waits for. -/
def Replayed.start {handler : WorkflowHandler H} {input : JsValue} (replayed : Replayed replay handler input after) : ReplayWorld H :=
  replayed.started.react replayed.result (.host .handlerSettled)

theorem Replayed.tagged {handler : WorkflowHandler H} {input : JsValue} (replayed : Replayed replay handler input after) :
    Tagged replayed.start := by
  refine (replay_tagged replay).frame _ _ (.ofUndisturbed (World.react_undisturbed _ _ _)) ?_
  have begun := (replay_tagged replay).preserves.run (handler.body input) (initialWorld handler replay.history) nofun
  rw [show run (replayHost H replay) (handler.body input) (initialWorld handler replay.history) = _ from replayed.begins] at begun
  exact begun

theorem Replayed.fresh {handler : WorkflowHandler H} {input : JsValue} (replayed : Replayed replay handler input after) :
    Fresh replayed.start := by
  have empty : Fresh (initialWorld handler replay.history) := fun _ _ => rfl
  have begun := empty.run replay (handler.body input)
  rw [show run (replayHost H replay) (handler.body input) (initialWorld handler replay.history) = _ from replayed.begins] at begun
  intro result beyond
  have same := (World.react_undisturbed replayed.result (.host .handlerSettled) replayed.started).tags
  exact (holders_react replayed.result rfl).trans (begun result ((promises_longer same).trans beyond))

/-- A replay hears of the history in order. -/
theorem Replayed.delivered {handler : WorkflowHandler H} {input : JsValue} (replayed : Replayed replay handler input after)
    (performs : Performs replay replayed.start trace world) : Delivered world := by
  have empty : Delivered (initialWorld handler replay.history) :=
    ⟨(fun _ _ held => nomatch held), fun _ listed => absurd listed List.not_mem_nil⟩
  have begun := Delivered.isKept.byCode.run replay (handler.body input) empty
  rw [show run (replayHost H replay) (handler.body input) (initialWorld handler replay.history) = _ from replayed.begins] at begun
  exact performs.delivered replayed.tagged (Delivered.isKept.react _ _ (fun resume _ => resume.free_all) begun)

end Traces

end DurableExecution.Workflow

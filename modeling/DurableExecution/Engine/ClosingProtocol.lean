import DurableExecution.Engine.ClosingSteps

/-
This file is about the transactions that close runs: whichever operation appends a closing
event, the same transaction settles the run's row, its tasks, its parent and its children.
-/

namespace DurableExecution.Engine

open Workflow (JsValue JsNumber WorkflowEvent WorkflowCommand commandToEvent Instant)
open Transaction
open Forest (Under)

/-- A transaction appended an event to the log of a run. -/
def Gains (db db' : Database) (runId : RunId) (event : WorkflowEvent) : Prop :=
  ∃ more, db'.log runId = db.log runId ++ more ∧ event ∈ more

/-- The closing of one run, from the state in which its closing event is in the log: the row is
terminal with the event's state, result and error, no task of the run waits for a worker, an
open parent learns the outcome once unless the run goes on as a new one, and every open child
meets its own policy. A parent that the same transaction closes is not told. -/
structure ClosingProtocol (now : Instant) (runId : RunId) (event : WorkflowEvent) (db db' : Database) : Prop where
  closed : (db.view runId).ClosedBy event (db'.view runId)
  withdrawn : ∀ task ∈ db'.tasks, task.runId = runId → task.state ≠ .pending
  tells : ∀ parent, db.parentOf runId = some parent → ¬ Falls (db.run? parent) (db'.run? parent) →
    TellsParent now db db' runId parent
  children : ∀ child row, db.run? child = some row → row.parentRunId = some runId → row.status = .running →
    MeetsPolicy now row (db.view child) (db'.view child)

/-- A run closed by a transaction about the run `top`: the transaction writes for `top` first,
then every run that closes is `top` or below it and closes by the protocol, and no run changes
but `top`, its parent and the runs below it. -/
def ClosesByProtocol (now : Instant) (runId : RunId) (event : WorkflowEvent) (db db' : Database) : Prop :=
  ∃ top events middle, Prepares top events db middle ∧ Under middle.parentOf top runId ∧
    ClosingProtocol now runId event middle db' ∧
    ∀ other, ¬ Under middle.parentOf top other → middle.parentOf top ≠ some other → db'.view other = middle.view other

section Tree

variable {now : Instant} {top runId other : RunId} {event : WorkflowEvent} {db db' : Database}

theorem RunView.ClosedBy.falls {before after : RunView} (closed : before.ClosedBy event after) : Falls before.row after.row := by
  obtain ⟨row, row', found, running, found', by'⟩ := closed.row
  exact ⟨row, row', found, running, found', (isTerminalState_iff _).mp (terminalStateFor_terminal _ _ by'.state)⟩

theorem RunView.ClosedBy.waits {before after : RunView} (closed : before.ClosedBy event after) :
    ∀ task ∈ after.tasks, task.state ≠ .pending := by
  rw [closed.tasks]
  intro task listed
  obtain ⟨old, -, rfl⟩ := List.mem_map.mp listed
  unfold TaskRow.recalled
  split
  · exact nofun
  · next apart => exact apart

/-- A child falls with its parent only when its policy is to be terminated. -/
theorem MeetsPolicy.falls {child : RunRow} {before after : RunView} (meets : MeetsPolicy now child before after)
    (falls : Falls before.row after.row) : (∃ seq, after.stored = before.stored ++
      [⟨child.id, seq, .runTerminated parentClosed, now⟩]) ∧ before.ClosedBy (.runTerminated parentClosed) after := by
  unfold MeetsPolicy at meets
  split at meets
  · rcases meets with ⟨-, same⟩ | ⟨-, seq, taskId, woken⟩
    · rw [same] at falls
      exact absurd falls Falls.changes
    · rw [woken] at falls
      exact absurd falls Falls.changes
  · exact meets
  · rw [meets] at falls
    exact absurd falls Falls.changes

/-- A child that meets its policy and gains a closing event is terminated. -/
theorem MeetsPolicy.gains {child : RunRow} {before after : RunView} (meets : MeetsPolicy now child before after) :
    ∃ more, after.stored.map EventRow.event = before.stored.map EventRow.event ++ more ∧
      ∀ event ∈ more, event.isClosing = true → event = .runTerminated parentClosed ∧ Falls before.row after.row := by
  unfold MeetsPolicy at meets
  split at meets
  · rcases meets with ⟨-, rfl⟩ | ⟨-, seq, taskId, rfl⟩
    · exact ⟨[], by simp, by simp⟩
    · refine ⟨[.cancelRequested parentClosed], by simp [RunView.woken], fun event listed closing => ?_⟩
      rw [List.mem_singleton.mp listed] at closing
      cases closing
  · obtain ⟨⟨seq, stored⟩, closed⟩ := meets
    refine ⟨[.runTerminated parentClosed], by simp [stored], fun event listed _ => ?_⟩
    exact ⟨List.mem_singleton.mp listed, closed.falls⟩
  · subst meets
    exact ⟨[], by simp, by simp⟩

theorem TellsParent.grows {parent : RunId} (tells : TellsParent now db db' runId parent) :
    ∃ more, db'.log parent = db.log parent ++ more ∧ ∀ event ∈ more, event.isClosing = false := by
  have kept (same : db'.view parent = db.view parent) :
      ∃ more, db'.log parent = db.log parent ++ more ∧ ∀ event ∈ more, event.isClosing = false := by
    refine ⟨[], ?_, by simp⟩
    rw [List.append_nil]
    exact congrArg (List.map EventRow.event) (congrArg RunView.stored same)
  cases tells with
  | @told parent closed childId seq taskId found running link found' final woken =>
    refine ⟨[childOutcomeEvent childId (projectionFromRow closed)], ?_, fun event listed => ?_⟩
    · have stored := congrArg (List.map EventRow.event) (congrArg RunView.stored woken)
      rw [RunView.woken, List.map_append] at stored
      exact stored
    · rw [List.mem_singleton.mp listed]
      exact childOutcomeEvent_quiet childId _
  | goesOn found' status same => exact kept same
  | deaf shut same => exact kept same

/-- In a closing only the runs that fall gain closing events, the run itself apart. -/
theorem ClosesTree.grows (closes : ClosesTree now top event db db') (other : RunId) :
    ∃ more, db'.log other = db.log other ++ more ∧ ∀ event ∈ more, event.isClosing = true →
      other ≠ top ∧ Under db.parentOf top other ∧ event = .runTerminated parentClosed ∧ Falls (db.run? other) (db'.run? other) := by
  have kept (same : db'.storedEvents other = db.storedEvents other) :
      ∃ more, db'.log other = db.log other ++ more ∧ ∀ event ∈ more, event.isClosing = true →
        other ≠ top ∧ Under db.parentOf top other ∧ event = .runTerminated parentClosed ∧
          Falls (db.run? other) (db'.run? other) := by
    refine ⟨[], ?_, by simp⟩
    rw [List.append_nil]
    exact congrArg (List.map EventRow.event) same
  by_cases self : other = top
  · exact self ▸ kept (self ▸ closes.stored)
  · by_cases under : Under db.parentOf top other
    · have treated := closes.below other under self
      by_cases meets : ∃ row parent, db.run? other = some row ∧ row.status = .running ∧ row.parentRunId = some parent ∧
          Falls (db.run? parent) (db'.run? parent)
      · obtain ⟨row, parent, found, running, named, falls⟩ := meets
        obtain ⟨more, grows, closing⟩ := (treated.meets row parent found running named falls).gains
        exact ⟨more, grows, fun event listed closes => ⟨self, under, closing event listed closes⟩⟩
      · refine kept (congrArg RunView.stored (treated.alone fun row parent found running named falls => meets ?_))
        exact ⟨row, parent, found, running, named, falls⟩
    · by_cases up : db.parentOf top = some other
      · obtain ⟨more, grows, quiet⟩ := (closes.tells other up).grows
        exact ⟨more, grows, fun event listed closing => absurd closing (by simp [quiet event listed])⟩
      · exact kept (congrArg RunView.stored (closes.frame other under up))

/-- Every run that falls in a closing does so by the protocol. -/
theorem ClosesTree.protocol (tidy : db.Tidy) (closes : ClosesTree now top event db db') (under : Under db.parentOf top runId)
    (falls : Falls (db.run? runId) (db'.run? runId)) :
    ClosingProtocol now runId (if runId = top then event else .runTerminated parentClosed) db db' := by
  have treated (self : runId ≠ top) : (db.view runId).ClosedBy (.runTerminated parentClosed) (db'.view runId) ∧
      ∃ parent, db.parentOf runId = some parent ∧ Falls (db.run? parent) (db'.run? parent) := by
    obtain ⟨-, row, parent, -, hangs, falls', meets⟩ := closes.brought self falls
    exact ⟨(meets.falls falls).2, parent, hangs, falls'⟩
  have closed : (db.view runId).ClosedBy (if runId = top then event else .runTerminated parentClosed) (db'.view runId) := by
    split
    · next self => exact self ▸ closes.closed
    · next self => exact (treated self).1
  refine ⟨closed, fun task listed own => ?_, fun parent hangs open' => ?_, fun child row found hangs running => ?_⟩
  · exact closed.waits task (List.mem_filter.mpr ⟨listed, by simpa using own⟩)
  · by_cases self : runId = top
    · subst self
      exact closes.tells parent hangs
    · obtain ⟨-, parent', hangs', falls'⟩ := treated self
      cases hangs.symm.trans hangs'
      exact absurd falls' open'
  · have named : db.parentOf child = some runId := by
      rw [Database.parentOf, found]
      exact hangs
    by_cases self : child = top
    · -- the run itself stands below no run of its tree
      exact absurd (under.le tidy.ordered) (not_le.mpr (tidy.ordered _ _ (self ▸ named)))
    · exact (closes.below child (under.step named) self).meets row runId found running hangs falls

/-- What a closing transaction appends closes a run by the protocol. -/
theorem ClosingStep.protocol {event : WorkflowEvent} (step : ClosingStep now db db') (gains : Gains db db' runId event)
    (closing : event.isClosing = true) : ClosesByProtocol now runId event db db' := by
  obtain ⟨more, grown, listed⟩ := gains
  cases step with
  | quiet grows calm =>
    obtain ⟨more', grown', quiet⟩ := grows runId
    have same := List.append_cancel_left (grown.symm.trans grown')
    rw [quiet event (same ▸ listed)] at closing
    cases closing
  | @closes top events middle prepares tidy calm closes ends =>
    obtain ⟨any, listed', closing'⟩ := ends
    have tree := closes any listed' closing'
    obtain ⟨later, grown', falls⟩ := tree.grows runId
    by_cases self : runId = top
    · subst self
      have same := List.append_cancel_left (grown.symm.trans (grown'.trans (by rw [prepares.log, List.append_assoc])))
      rw [same] at listed
      rcases List.mem_append.mp listed with early | late
      · have tree := closes event early closing
        have protocol := tree.protocol tidy .refl tree.closed.falls
        rw [if_pos rfl] at protocol
        exact ⟨runId, events, middle, prepares, .refl, protocol, tree.frame⟩
      · exact absurd rfl (falls event late closing).1
    · obtain ⟨early, grown'', quiet⟩ := prepares.grows runId self
      have same := List.append_cancel_left (grown.symm.trans (grown'.trans (by rw [grown'', List.append_assoc])))
      rw [same] at listed
      rcases List.mem_append.mp listed with early | late
      · rw [quiet event early] at closing
        cases closing
      · obtain ⟨-, under, rfl, fallen⟩ := falls event late closing
        have protocol := tree.protocol tidy under fallen
        rw [if_neg self] at protocol
        exact ⟨top, events, middle, prepares, under, protocol, tree.frame⟩

end Tree

/-- Whatever operation appends a closing event to the log of a run, in any state that the
operations reach: the same transaction closes the run by the protocol. It needs that no caller
enforces a timeout on a run that is overdue. -/
theorem closing_protocol {db : Database} (run : CoreRun CoreOp.inTime db) (op : CoreOp) (now : Instant)
    (inTime : op.inTime now db) (budget : Option Nat) (runId : RunId) (event : WorkflowEvent)
    (gains : Gains db (op.run now budget db) runId event) (closing : event.isClosing = true) :
    ClosesByProtocol now runId event db (op.run now budget db) :=
  (CoreOp.run_closes budget (coreRun_tidy run) inTime).protocol gains closing

/-- A run was started; its first workflow task waits for a worker. -/
def openRunDatabase : Database :=
  (CoreOp.engine (.startRun 0 "main" ⟨"order", .null, none, none, none⟩)).run .epoch none emptyDatabase

theorem closing_protocol_terminated : ClosesByProtocol .epoch 0 (.runTerminated none) openRunDatabase
    ((CoreOp.engine (.terminateRun 0 none)).run .epoch none openRunDatabase) :=
  closing_protocol (.step .empty _ .epoch trivial none) (.engine (.terminateRun 0 none)) .epoch trivial none 0
    (.runTerminated none) ⟨[.runTerminated none], rfl, List.mem_singleton_self _⟩ rfl

/-- One second and more after the start. -/
def overdue : Instant := ⟨2000, Workflow.twoSeconds_lower, Workflow.twoSeconds_upper⟩

/-- A timeout that a caller enforces appends its closing event and leaves the row open. -/
theorem closing_unsettled : ¬ ∀ (db : Database), CoreRun (fun _ _ _ => True) db → ∀ (op : CoreOp) (now : Instant)
    (budget : Option Nat) (runId : RunId) (event : WorkflowEvent), Gains db (op.run now budget db) runId event →
      event.isClosing = true → ClosesByProtocol now runId event db (op.run now budget db) := by
  intro all
  have gains : Gains openRunDatabase ((CoreOp.enforceWorkflowTimeout 0 (.finite 1000)).run overdue none openRunDatabase) 0
      (.runTimedOut none) := ⟨[.runTimedOut none], by with_unfolding_all rfl, List.mem_singleton_self _⟩
  obtain ⟨top, events, middle, -, -, protocol, -⟩ :=
    all openRunDatabase (.step .empty _ .epoch trivial none) _ overdue none 0 _ gains rfl
  obtain ⟨row, row', -, -, found, closed⟩ := protocol.closed.row
  have open' : (((CoreOp.enforceWorkflowTimeout 0 (.finite 1000)).run overdue none openRunDatabase).run? 0).map RunRow.status =
      some .running := by with_unfolding_all rfl
  have found' : ((CoreOp.enforceWorkflowTimeout 0 (.finite 1000)).run overdue none openRunDatabase).run? 0 = some row' := found
  rw [found'] at open'
  have terminal := closed.state
  rw [Option.some.inj open'] at terminal
  cases terminal

end DurableExecution.Engine

import Mathlib.Logic.Relation
import DurableExecution.Engine.CloseRun
import DurableExecution.Engine.Coherence

/-
This file says what the closing of a run does to the database, one change at a time, and
that the closing keeps the database coherent.
-/

namespace DurableExecution.Engine

open Workflow (JsValue RecordedError WorkflowEvent ParentClosePolicy Instant)
open Transaction
open Relation (ReflTransGen)

/-- A row without the columns that are a projection of the log. -/
def RunRow.identity (row : RunRow) : RunRow := row.withProjection createInitialProjection

/-- The database after an event that wakes a run: the event and a workflow task. -/
def Database.woken (db : Database) (row : RunRow) (event : WorkflowEvent) (reason : WakeReason)
    (now : Instant) : Database :=
  (db.appended row.id [event] now).addTask
    (newTask row.namespaceId row.id row.queueName (.workflowTask reason) now.ms)

/-- The events with which a closing run wakes its parent and its children. -/
inductive Waking (db : Database) (runId : RunId) : WorkflowEvent → WakeReason → Prop
  | outcome (childId : String) (projection : RunProjection) :
      Waking db runId (childOutcomeEvent childId projection) (.childClosed childId)
  | cancel (reason : Option String) (unasked : ∀ event ∈ db.log runId, event.isCancelRequested = false) :
      Waking db runId (.cancelRequested reason) .cancel

/-- One change of a closing. -/
inductive Settling (now : Instant) (db : Database) : Database → Prop
  | withdrawn {runId : RunId} {row : RunRow} (found : db.run? runId = some row)
      (closed : row.status ≠ .running) : Settling now db (db.withdrawTasks runId)
  | woken {runId : RunId} {row : RunRow} {event : WorkflowEvent} {reason : WakeReason}
      (found : db.run? runId = some row) (running : row.status = .running)
      (waking : Waking db runId event reason) : Settling now db (db.woken row event reason now)
  | terminated {runId : RunId} {row : RunRow} {reason : Option String} {next : RunProjection}
      (found : db.run? runId = some row) (running : row.status = .running)
      (folds : foldRunEvents ((db.appended runId [.runTerminated reason] now).unseen runId
        row.lastSequenceNumber) (projectionFromRow row) = .ok next) :
      Settling now db ((db.appended runId [.runTerminated reason] now).updateRun runId (·.withProjection next))

section Identity

variable {db db' : Database} {runId other : RunId} {row : RunRow}

theorem RunRow.identity_eq {row row' : RunRow} (same : row'.identity = row.identity) :
    row'.id = row.id ∧ row'.namespaceId = row.namespaceId ∧ row'.queueName = row.queueName ∧
      row'.parentRunId = row.parentRunId ∧ row'.parentClosePolicy = row.parentClosePolicy := by
  exact ⟨(congrArg RunRow.id same :), (congrArg RunRow.namespaceId same :), (congrArg RunRow.queueName same :),
    (congrArg RunRow.parentRunId same :), (congrArg RunRow.parentClosePolicy same :)⟩

theorem Database.updateRun_identity (next : RunProjection) :
    (db.updateRun runId (·.withProjection next)).runs.map RunRow.identity = db.runs.map RunRow.identity := by
  simp only [Database.updateRun, List.map_map]
  refine List.map_congr_left fun row _ => ?_
  simp only [Function.comp_apply]
  split <;> rfl

/-- Rows with the same identities are found under the same ids. -/
theorem Database.run?_identity (same : db'.runs.map RunRow.identity = db.runs.map RunRow.identity) :
    (db'.run? runId).map RunRow.identity = (db.run? runId).map RunRow.identity := by
  have lookup (runs : List RunRow) : (runs.find? fun row => row.id == runId).map RunRow.identity =
      (runs.map RunRow.identity).find? fun row => row.id == runId := by
    rw [List.find?_map]
    rfl
  rw [Database.run?, Database.run?, lookup, lookup, same]

theorem Database.run?_same (same : db'.runs.map RunRow.identity = db.runs.map RunRow.identity) (found : db.run? runId = some row) :
    ∃ row', db'.run? runId = some row' ∧ row'.identity = row.identity := by
  have mapped : (db'.run? runId).map RunRow.identity = (db.run? runId).map RunRow.identity :=
    Database.run?_identity same
  rw [found] at mapped
  cases found' : db'.run? runId with
  | none => rw [found'] at mapped; cases mapped
  | some row' =>
    rw [found'] at mapped
    exact ⟨row', rfl, Option.some.inj mapped⟩

end Identity

section Steps

variable {now : Instant} {db db' : Database}

theorem childOutcomeEvent_quiet (childId : String) (projection : RunProjection) :
    (childOutcomeEvent childId projection).isClosing = false := by
  unfold childOutcomeEvent
  split <;> rfl

theorem Waking.quiet {runId : RunId} {event : WorkflowEvent} {reason : WakeReason}
    (waking : Waking db runId event reason) : event.isClosing = false := by
  cases waking with
  | outcome childId projection => exact childOutcomeEvent_quiet childId projection
  | cancel reason unasked => rfl

theorem Settling.identity (step : Settling now db db') : db'.runs.map RunRow.identity = db.runs.map RunRow.identity := by
  cases step with
  | withdrawn found closed => rfl
  | woken found running waking => rfl
  | terminated found running folds => exact Database.updateRun_identity _

theorem Settling.coherent (step : Settling now db db') (coherent : db.Coherent none) : db'.Coherent none := by
  cases step with
  | withdrawn found closed => exact coherent.congr rfl rfl rfl le_rfl
  | woken found running waking =>
    refine Database.Coherent.addTask ?_ _
    have same := Database.run?_id found
    refine coherent.appended (same ▸ found) running (.inl rfl) (.inr fun event member => ?_)
    rw [List.mem_singleton.mp member]
    exact waking.quiet
  | @terminated runId row reason next found running folds =>
    have lagging : (db.appended runId [.runTerminated reason] now).Coherent (some runId) :=
      coherent.appended found running (.inr rfl) (.inl rfl)
    simpa using lagging.folded found folds

theorem settling_identity (steps : ReflTransGen (Settling now) db db') : db'.runs.map RunRow.identity = db.runs.map RunRow.identity := by
  induction steps with
  | refl => rfl
  | tail _ step ih => exact step.identity.trans ih

theorem settling_coherent (steps : ReflTransGen (Settling now) db db') (coherent : db.Coherent none) : db'.Coherent none := by
  induction steps with
  | refl => exact coherent
  | tail _ step ih => exact step.coherent ih

end Steps

section Closing

variable {now : Instant} {db : Database} {runId : RunId}

/-- A closed child wakes its parent or leaves the database as it is. -/
theorem notifyParent_spec (projection : RunProjection) : Ensures (· = db) (notifyParent runId projection now)
      fun _ db' => db' = db ∨ Settling now db db' ∧ db'.runs = db.runs := by
  unfold notifyParent
  split
  · exact .pure fun _ => .inl
  · refine .read ?_
    cases db.parentLink runId with
    | none => exact .pure fun _ => .inl
    | some link =>
      obtain ⟨parentRunId, childId⟩ := link
      refine .read ?_
      cases found : db.run? parentRunId with
      | none => exact .pure fun _ => .inl
      | some parent =>
        dsimp only
        split
        · exact .pure fun _ => .inl
        · next running =>
            refine .then appendNext_spec.discard ?_
            rintro _ store ⟨-, rfl, -⟩
            refine .read ?_
            rw [Database.appended_run?, found]
            refine .write ?_
            rintro _ rfl
            have same := Database.run?_id found
            have woken : Settling now db _ := .woken found (not_not.mp running) (.outcome childId projection)
            rw [Database.woken, same] at woken
            exact .inr ⟨woken, rfl⟩

/-- A request to cancel wakes the run, or finds an earlier request. -/
theorem requestCancellation_spec {row : RunRow} {reason : Option String} (found : db.run? runId = some row)
    (running : row.status = .running) (numbered : NumberedAfter (db.base runId).lastSequenceNumber (db.storedEvents runId)) :
    Ensures (· = db) (requestCancellation runId row.namespaceId row.queueName reason now)
      fun _ db' => db' = db ∨ Settling now db db' ∧ db'.runs = db.runs := by
  unfold requestCancellation readEvents
  refine .read ?_
  split
  · exact .pure fun _ => .inl
  · next unasked =>
      refine .then appendNext_spec.discard ?_
      rintro _ store ⟨-, rfl, -⟩
      refine .write ?_
      rintro _ rfl
      have same := Database.run?_id found
      have fresh : ∀ event ∈ db.log runId, event.isCancelRequested = false := by
        intro event member
        obtain ⟨stored, listed, rfl⟩ := List.mem_map.mp member
        simp only [List.any_eq_true, not_exists, not_and, Bool.not_eq_true] at unasked
        refine unasked stored ((List.mem_insertionSort _).mpr (List.mem_filter.mpr ⟨listed, ?_⟩))
        simpa using lt_of_le_of_lt (Nat.zero_le _) (numbered.mem listed).1
      have woken : Settling now db _ := .woken found running (.cancel reason fresh)
      rw [Database.woken, same] at woken
      exact .inr ⟨woken, rfl⟩

/-- The row of a run is folded up to the end of its log. -/
theorem refreshProjection_spec : Ensures (· = db) (refreshProjection runId) fun next db' => ∃ row, db.run? runId = some row ∧
      foldRunEvents (db.unseen runId row.lastSequenceNumber) (projectionFromRow row) = .ok next ∧
      db' = db.updateRun runId (·.withProjection next) := by
  unfold refreshProjection readEvents
  refine .read ?_
  cases found : db.run? runId with
  | none => exact .raise
  | some row =>
    refine .read ?_
    change Ensures _ (liftExcept (foldRunEvents (db.unseen runId row.lastSequenceNumber) _) >>= _) _
    cases folds : foldRunEvents (db.unseen runId row.lastSequenceNumber) (projectionFromRow row) with
    | error error => exact .through (fun _ _ => False) .raise fun _ _ _ _ => False.elim
    | ok next =>
      refine .through (fun answer db' => db' = db ∧ answer = next) (.pure fun _ same => ⟨same, rfl⟩) fun answer => ?_
      refine .each ?_
      rintro _ ⟨rfl, rfl⟩
      refine .wrote (.pure ?_)
      rintro _ rfl
      exact ⟨row, rfl, folds, rfl⟩

/-- A closing changes the status of no run but the closed one and runs below it. -/
def Undisturbed (runId : RunId) (db db' : Database) : Prop :=
  ∀ other row, db.run? other = some row → other ≠ runId →
    (∀ parentRunId, row.parentRunId = some parentRunId → parentRunId < runId) →
    ∃ row', db'.run? other = some row' ∧ row'.status = row.status

/-- The changes of a closing, all of them at or below a run. -/
structure Settled (now : Instant) (runId : RunId) (db db' : Database) : Prop where
  steps : ReflTransGen (Settling now) db db'
  undisturbed : Undisturbed runId db db'

/-- What `closeRunIfTerminal` does: it folds the run's row and, when that closes the run,
settles what hangs on it. -/
structure Closes (now : Instant) (runId : RunId) (row : RunRow) (next : RunProjection)
    (db db' : Database) : Prop where
  found : db.run? runId = some row
  folds : foldRunEvents (db.unseen runId row.lastSequenceNumber) (projectionFromRow row) = .ok next
  settled : Settled now runId (db.updateRun runId (·.withProjection next)) db'
  unclosed : next.state = .running → db' = db.updateRun runId (·.withProjection next)

theorem Settled.refl : Settled now runId db db := ⟨.refl, fun _ row found _ _ => ⟨row, found, rfl⟩⟩

theorem Settled.trans {db' db'' : Database} (first : Settled now runId db db') (second : Settled now runId db' db'') :
    Settled now runId db db'' := by
  refine ⟨first.steps.trans second.steps, fun other row found apart above => ?_⟩
  obtain ⟨row', found', status⟩ := first.undisturbed other row found apart above
  obtain ⟨same, found'', identity⟩ := Database.run?_same (settling_identity first.steps) found
  cases found'.symm.trans found''
  have parent := (RunRow.identity_eq identity).2.2.2.1
  obtain ⟨row'', found'', status'⟩ := second.undisturbed other row' found' apart (parent ▸ above)
  exact ⟨row'', found'', status'.trans status⟩

/-- Changes that leave the rows of runs alone. -/
theorem Settled.ofRuns {db' : Database} (step : db' = db ∨ Settling now db db' ∧ db'.runs = db.runs) : Settled now runId db db' := by
  rcases step with rfl | ⟨step, runs⟩
  · exact .refl
  · refine ⟨.single step, fun other row found _ _ => ⟨row, ?_, rfl⟩⟩
    rw [Database.run?, runs]
    exact found

/-- What is settled below a child is settled below its parent. -/
theorem Settled.parent {db' : Database} {child : RunRow} {childId : RunId} (settled : Settled now childId db db')
    (found : db.run? childId = some child) (parent : child.parentRunId = some runId) (below : runId < childId) :
    Settled now runId db db' := by
  refine ⟨settled.steps, fun other row found' apart above => ?_⟩
  refine settled.undisturbed other row found' ?_ fun up named => lt_trans (above up named) below
  rintro rfl
  cases found.symm.trans found'
  exact absurd (above runId parent) (lt_irrefl _)

section Children

variable {close : RunId → Tx Unit}

/-- What a closing parent does to one open child. -/
theorem applyParentClosePolicy_spec {child row : RunRow} (closes : ∀ db, db.Coherent (some child.id) →
      Ensures (· = db) (close child.id) fun _ db' => ∃ row next, Closes now child.id row next db db')
    (coherent : db.Coherent none) (found : db.run? child.id = some row) (running : row.status = .running)
    (identity : row.identity = child.identity) :
    Ensures (· = db) (applyParentClosePolicy close child now) fun _ db' => Settled now child.id db db' := by
  unfold applyParentClosePolicy
  split
  · refine .read ?_
    rw [found]
    dsimp only
    have numbered := (coherent.follows child.id row found).numbered
    rw [← (RunRow.identity_eq identity).2.1]
    exact (requestCancellation_spec found running numbered).mono (fun _ same => same) fun _ _ => .ofRuns
  · refine .then appendNext_spec.discard ?_
    rintro _ store ⟨-, rfl, -⟩
    have lagging : (db.appended child.id [.runTerminated (some "parent run closed")] now).Coherent (some child.id) :=
      coherent.appended found running (.inr rfl) (.inl rfl)
    refine (closes _ lagging).mono (fun _ same => same) ?_
    rintro _ db' ⟨row', next, closed⟩
    cases found.symm.trans closed.found
    have step := Settling.terminated found running closed.folds
    refine ⟨.head step closed.settled.steps, fun other sibling found' apart above => ?_⟩
    have kept : ((db.appended child.id [.runTerminated (some "parent run closed")] now).updateRun child.id
        (·.withProjection next)).run? other = some sibling := by
      rw [Database.updateRun_run? (·.withProjection next) fun _ => rfl, if_neg apart]
      exact found'
    exact closed.settled.undisturbed other sibling kept apart above
  · exact .pure fun _ same => same ▸ .refl

/-- What a closing parent does to its open children. -/
theorem applyParentClosePolicies_loop (children : List RunRow) (closes : ∀ child ∈ children, ∀ db, db.Coherent (some child.id) →
      Ensures (· = db) (close child.id) fun _ db' => ∃ row next, Closes now child.id row next db db')
    (distinct : (children.map RunRow.id).Nodup) (coherent : db.Coherent none)
    (open' : ∀ child ∈ children, child.parentRunId = some runId ∧ runId < child.id ∧
      ∃ row, db.run? child.id = some row ∧ row.status = .running ∧ row.identity = child.identity) :
    Ensures (· = db) (children.forM fun child => applyParentClosePolicy close child now) fun _ db' => Settled now runId db db' := by
  induction children generalizing db with
  | nil => exact .pure fun _ same => same ▸ .refl
  | cons child rest ih =>
    obtain ⟨parent, below, row, found, running, identity⟩ := open' child List.mem_cons_self
    have first := applyParentClosePolicy_spec (closes child List.mem_cons_self) coherent found running identity
    refine .then first fun _ middle settled => ?_
    have listed := (RunRow.identity_eq identity).2.2.2.1.trans parent
    have above := settled.parent found listed below
    simp only [List.map_cons, List.nodup_cons] at distinct
    refine (ih (fun other member => closes other (List.mem_cons_of_mem _ member)) distinct.2
      (settling_coherent settled.steps coherent) fun other member => ?_).mono (fun _ same => same)
      fun _ db' later => above.trans later
    obtain ⟨parent', below', row', found', running', identity'⟩ := open' other (List.mem_cons_of_mem _ member)
    refine ⟨parent', below', ?_⟩
    obtain ⟨row'', found'', status⟩ := settled.undisturbed other.id row' found'
      (fun same => distinct.1 (same ▸ List.mem_map_of_mem member))
      (fun up named => by
        rw [(RunRow.identity_eq identity').2.2.2.1, parent'] at named
        cases named
        exact below)
    obtain ⟨_, found''', identity''⟩ := Database.run?_same (settling_identity settled.steps) found'
    cases found''.symm.trans found'''
    exact ⟨row'', found'', status.trans running', identity''.trans identity'⟩

end Children

/-- The closing of a run, by induction on how deep its children may go. -/
theorem closeRunIfTerminal_spec (depth : Nat) (coherent : db.Coherent (some runId)) :
    Ensures (· = db) (closeRunIfTerminal now depth runId) fun _ db' => ∃ row next, Closes now runId row next db db' := by
  induction depth generalizing db runId with
  | zero => exact .raise
  | succ depth ih =>
    refine .then refreshProjection_spec ?_
    rintro next store ⟨row, found, folds, rfl⟩
    have coherent' : (db.updateRun runId (·.withProjection next)).Coherent none := by
      simpa using coherent.folded found folds
    have found' : (db.updateRun runId (·.withProjection next)).run? runId = some (row.withProjection next) := by
      rw [Database.updateRun_run? (·.withProjection next) fun _ => rfl, if_pos rfl, found]
      rfl
    split
    · next terminal =>
        have closed := (isTerminalState_iff _).mp terminal
        refine .wrote ?_
        have withdrawn : Settling now _ _ := .withdrawn found' closed
        refine .then (notifyParent_spec next) fun _ notified step => ?_
        have settled : Settled now runId (db.updateRun runId (·.withProjection next)) notified :=
          (Settled.ofRuns (.inr ⟨withdrawn, rfl⟩)).trans (.ofRuns step)
        have coherent'' := settling_coherent settled.steps coherent'
        refine .read ?_
        have children : ∀ child ∈ notified.openChildren runId, child ∈ notified.runs ∧
            child.parentRunId = some runId ∧ child.status = .running := by
          intro child member
          simpa [Database.openChildren, and_assoc] using member
        refine (applyParentClosePolicies_loop (notified.openChildren runId) (fun child member db' => ih) ?_ coherent''
          fun child member => ?_).mono (fun _ same => same) fun _ db' later =>
            ⟨row, next, found, folds, settled.trans later, fun open' => absurd open' closed⟩
        · exact List.Nodup.sublist (List.filter_sublist.map _) coherent''.distinct
        · obtain ⟨listed, parent, running⟩ := children child member
          exact ⟨parent, coherent''.parents child listed runId parent, child,
            Database.mem_run? coherent''.distinct listed, running, rfl⟩
    · next open' =>
        refine .pure ?_
        rintro _ rfl
        exact ⟨row, next, found, folds, .refl, fun _ => rfl⟩

/-- The closing of a run. -/
theorem closeRun_spec (coherent : db.Coherent (some runId)) :
    Ensures (· = db) (closeRun runId now) fun _ db' => ∃ row next, Closes now runId row next db db' := by
  intro session answer session' same ran
  exact closeRunIfTerminal_spec _ coherent session answer session' same ran

theorem Closes.coherent {row : RunRow} {next : RunProjection} {db' : Database}
    (closes : Closes now runId row next db db') (coherent : db.Coherent (some runId)) : db'.Coherent none := by
  refine settling_coherent closes.settled.steps ?_
  simpa using coherent.folded closes.found closes.folds

end Closing

end DurableExecution.Engine

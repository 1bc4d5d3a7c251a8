import DurableExecution.Forest.Below
import DurableExecution.Engine.RunTree

/-
This file says exactly what a closing does, run by run: to the closed run, to its parent and
to the tree of runs below it. It asks nothing of the logs.
-/

namespace DurableExecution.Engine

open Workflow (JsValue RecordedError WorkflowEvent ParentClosePolicy Instant)
open Transaction
open Forest (Under)

/-- What the tables say of one run. -/
@[ext]
structure RunView where
  row : Option RunRow
  stored : List EventRow
  tasks : List TaskRow

def Database.view (db : Database) (runId : RunId) : RunView where
  row := db.run? runId
  stored := db.storedEvents runId
  tasks := db.tasks.filter fun task => task.runId == runId

def Database.parentOf (db : Database) (runId : RunId) : Option RunId := (db.run? runId).bind RunRow.parentRunId

/-- A task that waits for a worker is withdrawn. -/
def TaskRow.recalled (task : TaskRow) : TaskRow :=
  if task.state = .pending then { task with state := .completed } else task

/-- The result that a closing event leaves in the row of its run. -/
def closingResult (before : JsValue) : WorkflowEvent → JsValue
  | .runCompleted result => JsValue.orNull result
  | _ => before

/-- The error that a closing event leaves in the row of its run. -/
def closingError (before : Option RecordedError) : WorkflowEvent → Option RecordedError
  | .runFailed error => some error
  | _ => before

/-- A run's row is terminal, as its closing event has it. -/
structure RunRow.ClosedBy (event : WorkflowEvent) (row row' : RunRow) : Prop where
  state : terminalStateFor event = some row'.status
  result : row'.result = closingResult row.result event
  error : row'.error = closingError row.error event
  identity : row'.identity = row.identity

/-- An open run closed: its row is terminal and no worker will pick up its tasks. -/
structure RunView.ClosedBy (event : WorkflowEvent) (before after : RunView) : Prop where
  row : ∃ row row', before.row = some row ∧ row.status = .running ∧ after.row = some row' ∧ row.ClosedBy event row'
  tasks : after.tasks = before.tasks.map TaskRow.recalled

/-- A run was open and is closed now. -/
def Falls (before after : Option RunRow) : Prop :=
  ∃ row row', before = some row ∧ row.status = .running ∧ after = some row' ∧ row'.status ≠ .running

/-- A request to cancel is in the log. -/
def RunView.Asked (view : RunView) : Prop :=
  ∃ stored ∈ view.stored, 0 < stored.sequenceNumber ∧ stored.event.isCancelRequested = true

/-- An event is appended to a run's log and a workflow task enqueued. -/
def RunView.woken (view : RunView) (row : RunRow) (event : WorkflowEvent) (reason : WakeReason) (now : Instant)
    (seq taskId : Nat) : RunView where
  row := view.row
  stored := view.stored ++ [⟨row.id, seq, event, now⟩]
  tasks := view.tasks ++ [newTask row.namespaceId row.id row.queueName (.workflowTask reason) now.ms taskId]

def parentClosed : Option String := some "parent run closed"

/-- What the closing of its parent does to an open child, by the child's own policy. -/
def MeetsPolicy (now : Instant) (child : RunRow) (before after : RunView) : Prop :=
  match child.parentClosePolicy with
  | some .cancel => before.Asked ∧ after = before ∨
      ¬ before.Asked ∧ ∃ seq taskId, after = before.woken child (.cancelRequested parentClosed) .cancel now seq taskId
  | some .terminate => (∃ seq, after.stored = before.stored ++ [⟨child.id, seq, .runTerminated parentClosed, now⟩]) ∧
      before.ClosedBy (.runTerminated parentClosed) after
  | _ => after = before

/-- A run meets its policy when it is open and its parent falls, and is left alone otherwise. -/
structure TreatedBelow (now : Instant) (db db' : Database) (runId : RunId) : Prop where
  meets : ∀ row parent, db.run? runId = some row → row.status = .running → row.parentRunId = some parent →
    Falls (db.run? parent) (db'.run? parent) → MeetsPolicy now row (db.view runId) (db'.view runId)
  alone : (∀ row parent, db.run? runId = some row → row.status = .running → row.parentRunId = some parent →
    ¬ Falls (db.run? parent) (db'.run? parent)) → db'.view runId = db.view runId

/-- What a run does to its parent when it closes: an open parent learns the outcome, unless the
run goes on as a new one. -/
inductive TellsParent (now : Instant) (db db' : Database) (runId parentRunId : RunId) : Prop
  | told {parent closed : RunRow} {childId : String} {seq taskId : Nat} (found : db.run? parentRunId = some parent)
      (running : parent.status = .running) (link : db.parentLink runId = some (parentRunId, childId))
      (found' : db'.run? runId = some closed) (final : closed.status ≠ .continuedAsNew)
      (woken : db'.view parentRunId = (db.view parentRunId).woken parent
        (childOutcomeEvent childId (projectionFromRow closed)) (.childClosed childId) now seq taskId)
  | goesOn {closed : RunRow} (found' : db'.run? runId = some closed) (status : closed.status = .continuedAsNew)
      (kept : db'.view parentRunId = db.view parentRunId)
  | deaf (shut : ∀ parent, db.run? parentRunId = some parent → parent.status ≠ .running)
      (kept : db'.view parentRunId = db.view parentRunId)

/-- What a closing does. -/
structure ClosesTree (now : Instant) (runId : RunId) (event : WorkflowEvent) (db db' : Database) : Prop where
  identities : db'.runs.map RunRow.identity = db.runs.map RunRow.identity
  stored : db'.storedEvents runId = db.storedEvents runId
  closed : (db.view runId).ClosedBy event (db'.view runId)
  tells : ∀ parent, db.parentOf runId = some parent → TellsParent now db db' runId parent
  below : ∀ other, Under db.parentOf runId other → other ≠ runId → TreatedBelow now db db' other
  frame : ∀ other, ¬ Under db.parentOf runId other → db.parentOf runId ≠ some other → db'.view other = db.view other

section Views

variable {db : Database} {runId other : RunId} {now : Instant}

theorem Database.appended_view {events : List WorkflowEvent} (apart : other ≠ runId) :
    (db.appended runId events now).view other = db.view other :=
  RunView.ext rfl (by simp [Database.view, Database.appended_storedEvents, apart]) rfl

theorem Database.updateRun_view {change : RunRow → RunRow} (keeps : ∀ row, (change row).id = row.id) (apart : other ≠ runId) :
    (db.updateRun runId change).view other = db.view other :=
  RunView.ext (by simp only [Database.view, Database.updateRun_run? change keeps, if_neg apart]) rfl rfl

theorem Database.withdrawTasks_view (apart : other ≠ runId) : (db.withdrawTasks runId).view other = db.view other := by
  refine RunView.ext rfl rfl ?_
  simp only [Database.view, Database.withdrawTasks]
  induction db.tasks with
  | nil => rfl
  | cons task rest ih =>
    simp only [List.map_cons, List.filter_cons, ih]
    by_cases mine : task.runId = runId ∧ task.state = .pending
    · have theirs : ¬ runId = other := fun same => apart same.symm
      simp [mine, theirs]
    · rw [if_neg mine]

theorem Database.withdrawTasks_own : (db.withdrawTasks runId).view runId =
    { db.view runId with tasks := (db.view runId).tasks.map TaskRow.recalled } := by
  refine RunView.ext rfl rfl ?_
  simp only [Database.view, Database.withdrawTasks]
  induction db.tasks with
  | nil => rfl
  | cons task rest ih =>
    simp only [List.map_cons, List.filter_cons, ih]
    by_cases own : task.runId = runId
    · by_cases waits : task.state = .pending
      · simp [own, waits, TaskRow.recalled]
      · simp [own, waits, TaskRow.recalled]
    · simp [own]

theorem Database.addTask_view {task : Nat → TaskRow} (apart : other ≠ (task db.nextId).runId) :
    (db.addTask task).view other = db.view other := by
  have theirs : ¬ (task db.nextId).runId = other := fun same => apart same.symm
  exact RunView.ext rfl rfl (by simp [Database.view, Database.addTask, List.filter_append, theirs])

/-- Waking a run changes what the tables say of that run only. -/
theorem Database.woken_view {row : RunRow} {event : WorkflowEvent} {reason : WakeReason} (apart : other ≠ row.id) :
    (db.woken row event reason now).view other = db.view other := by
  rw [Database.woken, Database.addTask_view apart, Database.appended_view apart]

theorem Database.woken_own {row : RunRow} {event : WorkflowEvent} {reason : WakeReason} : (db.woken row event reason now).view row.id =
      (db.view row.id).woken row event reason now (db.currentSequence row.id + 1) db.nextId :=
  RunView.ext rfl (by simp [Database.woken, Database.view, Database.appended_storedEvents, RunView.woken, eventRows])
    (by simp [Database.woken, Database.view, Database.addTask, List.filter_append, RunView.woken, newTask, Database.appended])

/-- Which parent a run has is told by the columns that no closing writes. -/
theorem Database.parentOf_same {db' : Database} (identities : db'.runs.map RunRow.identity = db.runs.map RunRow.identity) :
    db'.parentOf = db.parentOf := by
  funext runId
  unfold Database.parentOf
  cases found : db.run? runId with
  | none =>
    have missing : db'.run? runId = none := by
      have same : (db'.run? runId).map RunRow.identity = (db.run? runId).map RunRow.identity :=
        Database.run?_identity identities
      rw [found, Option.map_none, Option.map_eq_none_iff] at same
      exact same
    rw [missing]
  | some row =>
    obtain ⟨row', found', identity⟩ := Database.run?_same identities found
    rw [found']
    exact (RunRow.identity_eq identity).2.2.2.1

theorem Database.Tidy.ordered (tidy : db.Tidy) : ∀ child up, db.parentOf child = some up → up < child := by
  intro child up hangs
  obtain ⟨row, found, named⟩ := Option.bind_eq_some_iff.mp hangs
  rw [← Database.run?_id found]
  exact tidy.parents row (Database.run?_mem found) up named

/-- A column that no closing writes. -/
theorem Database.column_same {B : Type} {db' : Database} (identities : db'.runs.map RunRow.identity = db.runs.map RunRow.identity)
    (runId : RunId) (column : RunRow → B) (kept : ∀ row : RunRow, column row.identity = column row) :
    (db'.run? runId).map column = (db.run? runId).map column := by
  have same : (db'.run? runId).map RunRow.identity = (db.run? runId).map RunRow.identity := Database.run?_identity identities
  have mapped := congrArg (Option.map column) same
  have spelled : column ∘ RunRow.identity = column := funext kept
  simpa only [Option.map_map, spelled] using mapped

/-- So is the name its parent knows it by. -/
theorem Database.parentLink_same {db' : Database} (identities : db'.runs.map RunRow.identity = db.runs.map RunRow.identity) :
    db'.parentLink runId = db.parentLink runId := by
  have first := Database.column_same identities runId RunRow.firstRunId fun _ => rfl
  have up := Database.column_same identities runId RunRow.parentRunId fun _ => rfl
  have own := Database.column_same identities runId RunRow.parentChildId fun _ => rfl
  have named (head : RunId) : (db'.run? head).map RunRow.parentChildId = (db.run? head).map RunRow.parentChildId :=
    Database.column_same identities head _ fun _ => rfl
  have spelled (db : Database) : db.parentLink runId =
      ((db.run? runId).map RunRow.firstRunId).bind fun head => ((db.run? head).map RunRow.parentChildId).bind fun headChild =>
        ((db.run? runId).map RunRow.parentRunId).bind fun parent => ((db.run? runId).map RunRow.parentChildId).bind fun own =>
          parent.bind fun parent => (own.or headChild).map fun childId => (parent, childId) := by
    unfold Database.parentLink
    cases db.run? runId with
    | none => rfl
    | some row =>
      change ((db.run? row.firstRunId).bind fun head => _) = _
      simp only [Option.map_some, Option.bind_some, Option.bind_map]
      cases db.run? row.firstRunId with
      | none => rfl
      | some head =>
        simp only [Option.bind_some, Function.comp_apply]
        cases row.parentRunId with
        | none => rfl
        | some parent => cases row.parentChildId.or head.parentChildId <;> rfl
  rw [spelled, spelled, first, up, own]
  simp only [named]

/-- Every child has a name that its parent knows it by. -/
theorem Database.Tidy.link {parent : RunId} (tidy : db.Tidy) (hangs : db.parentOf runId = some parent) :
    ∃ childId, db.parentLink runId = some (parent, childId) := by
  obtain ⟨row, found, named⟩ := Option.bind_eq_some_iff.mp hangs
  obtain ⟨head, listed, id, child⟩ := tidy.linked row (Database.run?_mem found) (by rw [named]; rfl)
  have foundHead := Database.mem_run? tidy.distinct listed
  rw [id] at foundHead
  have chosen : (row.parentChildId.or head.parentChildId).isSome = true := by
    rw [Option.isSome_or, child, Bool.or_true]
  obtain ⟨childId, same⟩ := Option.isSome_iff_exists.mp chosen
  refine ⟨childId, ?_⟩
  simp only [Database.parentLink, found, foundHead, named, same, bind, Option.bind, pure]

end Views

section Folding

/-- A stored event leaves its result and its error in the projection. -/
theorem applyEventToProjection_fills {projection next : RunProjection} {stored : EventRow}
    (applied : applyEventToProjection projection stored = .ok next) :
    next.result = closingResult projection.result stored.event ∧ next.error = closingError projection.error stored.event := by
  unfold applyEventToProjection at applied
  split at applied
  · cases applied
  · split at applied
    · cases applied
    · cases event : stored.event <;> simp only [event, terminalStateFor] at applied <;> (try split at applied) <;>
        cases applied <;> exact ⟨rfl, rfl⟩

/-- The closing event among the events that are folded decides the outcome. -/
theorem foldRunEvents_closes {events : List EventRow} {start next : RunProjection} {stored : EventRow}
    (folds : foldRunEvents events start = .ok next) (listed : stored ∈ events) (closing : stored.event.isClosing = true) :
    terminalStateFor stored.event = some next.state ∧ next.result = closingResult start.result stored.event ∧
      next.error = closingError start.error stored.event := by
  induction events generalizing start with
  | nil => cases listed
  | cons first rest ih =>
    simp only [foldRunEvents, List.foldlM_cons, bind, Except.bind] at folds
    split at folds
    · cases folds
    · next middle applied =>
        obtain ⟨result, error⟩ := applyEventToProjection_fills applied
        obtain ⟨-, -, -, state⟩ := applyEventToProjection_ok applied
        have isSome := terminalStateFor_isClosing first.event
        cases target : terminalStateFor first.event with
        | some reached =>
          rw [target] at state
          have closed : middle.state ≠ .running := by
            rw [state]
            exact (isTerminalState_iff _).mp (terminalStateFor_terminal _ _ target)
          have empty := foldRunEvents_closed closed folds
          subst empty
          cases folds
          rw [List.mem_singleton.mp listed, target, state]
          exact ⟨rfl, result, error⟩
        | none =>
          have later : stored ∈ rest := by
            rcases List.mem_cons.mp listed with rfl | later
            · rw [target, closing] at isSome
              cases isSome
            · exact later
          obtain ⟨state', result', error'⟩ := ih folds later
          have quiet : closingResult start.result first.event = start.result ∧
              closingError start.error first.event = start.error := by
            cases event : first.event <;> simp only [event, terminalStateFor, reduceCtorEq] at target <;> exact ⟨rfl, rfl⟩
          rw [quiet.1] at result
          rw [quiet.2] at error
          exact ⟨state', result ▸ result', error ▸ error'⟩

end Folding

section Transport

variable {now : Instant} {db db' : Database} {runId other : RunId}

/-- How a run is treated depends on what the tables say of it and of its parent. -/
theorem TreatedBelow.congr {start start' : Database} (treated : TreatedBelow now db db' other)
    (before : start.view other = db.view other) (after : start'.view other = db'.view other)
    (up : ∀ parent, db.parentOf other = some parent → start.run? parent = db.run? parent ∧ start'.run? parent = db'.run? parent) :
    TreatedBelow now start start' other := by
  have row : start.run? other = db.run? other := congrArg RunView.row before
  have hangs : ∀ row parent, db.run? other = some row → row.parentRunId = some parent → db.parentOf other = some parent := by
    intro row parent found named
    rw [Database.parentOf, found]
    exact named
  constructor
  · intro child parent found running named falls
    rw [row] at found
    obtain ⟨same, same'⟩ := up parent (hangs child parent found named)
    rw [same, same'] at falls
    rw [before, after]
    exact treated.meets child parent found running named falls
  · intro stays
    rw [before, after]
    refine treated.alone fun child parent found running named falls => ?_
    obtain ⟨same, same'⟩ := up parent (hangs child parent found named)
    rw [← same, ← same'] at falls
    exact stays child parent (row.trans found) running named falls

theorem Falls.changes {row : Option RunRow} : ¬ Falls row row := by
  rintro ⟨before, after, found, running, found', closed⟩
  cases found.symm.trans found'
  exact closed running

/-- A run whose parent stays as it is is left alone. -/
theorem TreatedBelow.untouched (same : db'.view other = db.view other)
    (up : ∀ parent, db.parentOf other = some parent → db'.run? parent = db.run? parent) : TreatedBelow now db db' other := by
  refine ⟨fun row parent found _ named falls => ?_, fun _ => same⟩
  have hangs : db.parentOf other = some parent := by
    rw [Database.parentOf, found]
    exact named
  rw [up parent hangs] at falls
  exact absurd falls Falls.changes

/-- What a parent is told depends on the rows of the two runs and on what the tables say of the parent. -/
theorem TellsParent.congr {start start' : Database} {parent : RunId} (tells : TellsParent now db db' runId parent)
    (identities : start.runs.map RunRow.identity = db.runs.map RunRow.identity)
    (closed : start'.run? runId = db'.run? runId) (before : start.view parent = db.view parent)
    (after : start'.view parent = db'.view parent) : TellsParent now start start' runId parent := by
  have row : start.run? parent = db.run? parent := congrArg RunView.row before
  cases tells with
  | told found running link found' final woken =>
    rw [← after, ← before] at woken
    exact .told (row.trans found) running ((Database.parentLink_same identities).trans link) (closed.trans found') final woken
  | goesOn found' status kept =>
    refine .goesOn (closed.trans found') status ?_
    rw [after, before]
    exact kept
  | deaf shut kept =>
    refine .deaf (fun parent found => shut parent (row.symm.trans found)) ?_
    rw [after, before]
    exact kept

end Transport

section Closing

variable {now : Instant} {db : Database} {runId : RunId}

/-- The parent is told, and nothing else happens. -/
theorem notifyParent_tells {closed : RunRow} {next : RunProjection} (tidy : db.Tidy) (found : db.run? runId = some closed)
    (folded : projectionFromRow closed = next) : Ensures (· = db) (notifyParent runId next now) fun _ db' => db'.runs = db.runs ∧
      (∀ other, db.parentOf runId ≠ some other → db'.view other = db.view other) ∧
      ∀ parent, db.parentOf runId = some parent → TellsParent now db db' runId parent := by
  have state : closed.status = next.state := congrArg RunProjection.state folded
  unfold notifyParent
  split
  · next continued =>
      refine .pure ?_
      rintro _ rfl
      exact ⟨rfl, fun _ _ => rfl, fun parent _ => .goesOn found (state.trans continued) rfl⟩
  · next final =>
      refine .read ?_
      cases hangs : db.parentOf runId with
      | none =>
        have alone : db.parentLink runId = none := by
          simp only [Database.parentOf, found, Option.bind_some] at hangs
          simp only [Database.parentLink, found, hangs, bind, Option.bind_some, Option.bind_none]
          cases db.run? closed.firstRunId <;> rfl
        rw [alone]
        refine .pure ?_
        rintro _ rfl
        exact ⟨rfl, fun _ _ => rfl, nofun⟩
      | some parentRunId =>
        obtain ⟨childId, link⟩ := tidy.link hangs
        rw [link]
        refine .read ?_
        cases foundParent : db.run? parentRunId with
        | none =>
          refine .pure ?_
          rintro _ rfl
          refine ⟨rfl, fun _ _ => rfl, fun parent named => ?_⟩
          cases named
          exact .deaf (by simp [foundParent]) rfl
        | some parent =>
          dsimp only
          split
          · next shut =>
              refine .pure ?_
              rintro _ rfl
              refine ⟨rfl, fun _ _ => rfl, fun other named => ?_⟩
              cases named
              exact .deaf (fun row same => Option.some.inj (foundParent.symm.trans same) ▸ shut) rfl
          · next open' =>
              refine .then appendNext_spec.discard ?_
              rintro _ store ⟨-, rfl, -⟩
              refine .read ?_
              rw [Database.appended_run?, foundParent]
              refine .write ?_
              rintro _ rfl
              have same := Database.run?_id foundParent
              subst same
              refine ⟨rfl, fun other apart => Database.woken_view fun same => apart (same ▸ rfl), fun other named => ?_⟩
              cases named
              rw [← folded]
              exact .told foundParent (not_not.mp open') link found (state ▸ final) Database.woken_own

/-- What a closing parent does to one open child: the child meets its policy, with the runs
below it. -/
structure TreatsChild (now : Instant) (child : RunRow) (db db' : Database) : Prop where
  identities : db'.runs.map RunRow.identity = db.runs.map RunRow.identity
  meets : MeetsPolicy now child (db.view child.id) (db'.view child.id)
  below : ∀ other, Under db.parentOf child.id other → other ≠ child.id → TreatedBelow now db db' other
  frame : ∀ other, ¬ Under db.parentOf child.id other → db'.view other = db.view other

theorem TreatsChild.refl {child : RunRow} (meets : MeetsPolicy now child (db.view child.id) (db.view child.id)) :
    TreatsChild now child db db :=
  ⟨rfl, meets, fun _ _ _ => .untouched rfl fun _ _ => rfl, fun _ _ => rfl⟩

/-- A run is asked to cancel, unless it was asked before. -/
theorem requestCancellation_treats {child : RunRow} (found : db.run? child.id = some child)
    (policy : child.parentClosePolicy = some .cancel) :
    Ensures (· = db) (requestCancellation child.id child.namespaceId child.queueName parentClosed now)
      fun _ => TreatsChild now child db := by
  have meets (after : RunView) (outcome : (db.view child.id).Asked ∧ after = db.view child.id ∨
      ¬ (db.view child.id).Asked ∧ ∃ seq taskId, after = (db.view child.id).woken child (.cancelRequested parentClosed) .cancel
        now seq taskId) : MeetsPolicy now child (db.view child.id) after := by
    unfold MeetsPolicy
    rw [policy]
    exact outcome
  have asked : (db.unseen child.id 0).any (fun stored => stored.event.isCancelRequested) = true ↔ (db.view child.id).Asked := by
    simp only [List.any_eq_true, Database.mem_unseen, RunView.Asked, Database.view, and_assoc]
  unfold requestCancellation readEvents
  refine .read ?_
  split
  · next before =>
      refine .pure ?_
      rintro _ rfl
      exact .refl (meets _ (.inl ⟨asked.mp before, rfl⟩))
  · next unasked =>
      refine .then appendNext_spec.discard ?_
      rintro _ store ⟨-, rfl, -⟩
      refine .write ?_
      rintro _ rfl
      change TreatsChild now child db (db.woken child (.cancelRequested parentClosed) .cancel now)
      refine ⟨rfl, meets _ (.inr ⟨fun before => unasked (asked.mpr before), _, _, Database.woken_own⟩), ?_, ?_⟩
      · intro other _ apart
        exact .untouched (Database.woken_view apart) fun _ _ => rfl
      · exact fun other outside => Database.woken_view fun same => outside (same ▸ .refl)

/-- One open child of a closed run. -/
theorem applyParentClosePolicy_treats {close : RunId → Tx Unit} {child : RunRow}
    (closes : ∀ (db : Database) (runId : RunId) (row : RunRow) (stored : EventRow), db.Tidy → db.run? runId = some row →
      row.status = .running → stored ∈ db.storedEvents runId → row.lastSequenceNumber < stored.sequenceNumber →
      stored.event.isClosing = true → Ensures (· = db) (close runId) fun _ => ClosesTree now runId stored.event db)
    (tidy : db.Tidy) (found : db.run? child.id = some child) (running : child.status = .running)
    (hangs : child.parentRunId = some runId) (shut : ∀ row, db.run? runId = some row → row.status ≠ .running) :
    Ensures (· = db) (applyParentClosePolicy close child now) fun _ => TreatsChild now child db := by
  unfold applyParentClosePolicy
  split
  · next policy =>
      refine .read ?_
      rw [found]
      exact requestCancellation_treats found policy
  · next policy =>
      refine .then appendNext_spec.discard ?_
      rintro _ store ⟨-, rfl, -⟩
      have tidy' : (db.appended child.id [.runTerminated parentClosed] now).Tidy :=
        keepsTidy_whole.appended _ _ (fun _ _ => trivial) tidy
      have stored : (⟨child.id, db.currentSequence child.id + 1, .runTerminated parentClosed, now⟩ : EventRow) ∈
          (db.appended child.id [.runTerminated parentClosed] now).storedEvents child.id := by
        simp [Database.appended_storedEvents, eventRows]
      have unseen := Nat.lt_succ_of_le (tidy.seen child (Database.run?_mem found))
      refine (closes _ child.id child _ tidy' found running stored unseen rfl).mono (fun _ => id) fun _ db' closed => ?_
      have above : db.parentOf child.id = some runId := by
        rw [Database.parentOf, found]
        exact hangs
      refine ⟨closed.identities, ?_, fun other under apart => ?_, fun other outside => ?_⟩
      · unfold MeetsPolicy
        rw [policy]
        refine ⟨⟨db.currentSequence child.id + 1, closed.stored.trans ?_⟩, closed.closed.row, closed.closed.tasks⟩
        simp [Database.appended_storedEvents, eventRows, Database.view]
      · exact (closed.below other under apart).congr (Database.appended_view apart).symm rfl fun _ _ => ⟨rfl, rfl⟩
      · have apart : other ≠ child.id := fun same => outside (same ▸ .refl)
        have same : (db.appended child.id [.runTerminated parentClosed] now).view other = db.view other :=
          Database.appended_view apart
        refine Eq.trans ?_ same
        by_cases up : other = runId
        · subst up
          cases closed.tells other above with
          | told foundParent runningParent => exact absurd runningParent (shut _ foundParent)
          | goesOn _ _ kept => exact kept
          | deaf _ kept => exact kept
        · exact closed.frame other outside fun named => up (Option.some.inj (named.symm.trans above))
  · next notCancel notTerminate =>
      refine .pure ?_
      rintro _ rfl
      refine .refl ?_
      unfold MeetsPolicy
      split
      · next policy => exact absurd policy notCancel
      · next policy => exact absurd policy notTerminate
      · rfl

/-- What a closing parent does to its open children. -/
structure TreatsChildren (now : Instant) (children : List RunRow) (db db' : Database) : Prop where
  identities : db'.runs.map RunRow.identity = db.runs.map RunRow.identity
  meets : ∀ child ∈ children, MeetsPolicy now child (db.view child.id) (db'.view child.id)
  below : ∀ child ∈ children, ∀ other, Under db.parentOf child.id other → other ≠ child.id → TreatedBelow now db db' other
  frame : ∀ other, (∀ child ∈ children, ¬ Under db.parentOf child.id other) → db'.view other = db.view other

/-- The trees below two children of a run are apart, so one child is treated after the other as if it were alone. -/
theorem TreatsChildren.cons {child : RunRow} {rest : List RunRow} {middle db' : Database} (tidy : db.Tidy)
    (first : TreatsChild now child db middle) (others : TreatsChildren now rest middle db')
    (distinct : ∀ other ∈ rest, child.id ≠ other.id) (hangs : db.parentOf child.id = some runId)
    (hangs' : ∀ other ∈ rest, db.parentOf other.id = some runId) : TreatsChildren now (child :: rest) db db' := by
  have parents : middle.parentOf = db.parentOf := Database.parentOf_same first.identities
  have apart : ∀ other ∈ rest, ∀ node, Under db.parentOf child.id node → ¬ Under db.parentOf other.id node :=
    fun other listed node under under' => distinct other listed (under.siblings tidy.ordered under' hangs (hangs' other listed))
  have later : ∀ node, Under db.parentOf child.id node → db'.view node = middle.view node := by
    intro node under
    refine others.frame node fun other listed => ?_
    rw [parents]
    exact apart other listed node under
  have earlier : ∀ other ∈ rest, ∀ node, Under db.parentOf other.id node → middle.view node = db.view node :=
    fun other listed node under => first.frame node fun under' => apart other listed node under' under
  refine ⟨others.identities.trans first.identities, fun other listed => ?_, fun other listed node under away => ?_,
    fun node outside => ?_⟩
  · rcases List.mem_cons.mp listed with rfl | listed
    · rw [later _ .refl]
      exact first.meets
    · rw [← earlier other listed other.id .refl]
      exact others.meets other listed
  · obtain ⟨up, named, above⟩ := under.above away
    rcases List.mem_cons.mp listed with rfl | listed
    · refine (first.below node under away).congr rfl (later node under) fun parent named' => ?_
      cases named.symm.trans named'
      exact ⟨rfl, congrArg RunView.row (later up above)⟩
    · rw [← parents] at under named
      refine (others.below other listed node under away).congr ?_ rfl fun parent named' => ?_
      · rw [parents] at under
        exact (earlier other listed node under).symm
      · cases named.symm.trans named'
        exact ⟨(congrArg RunView.row (earlier other listed up above)).symm, rfl⟩
  · rw [← first.frame node (outside child List.mem_cons_self)]
    refine others.frame node fun other listed => ?_
    rw [parents]
    exact outside other (List.mem_cons_of_mem _ listed)

theorem applyParentClosePolicies_treats {close : RunId → Tx Unit} (children : List RunRow)
    (closes : ∀ (db : Database) (runId : RunId) (row : RunRow) (stored : EventRow), db.Tidy → db.run? runId = some row →
      row.status = .running → stored ∈ db.storedEvents runId → row.lastSequenceNumber < stored.sequenceNumber →
      stored.event.isClosing = true → Ensures (· = db) (close runId) fun _ => ClosesTree now runId stored.event db)
    (keeps : ∀ runId, Keeps KeepsTidy (close runId)) (distinct : (children.map RunRow.id).Nodup) (tidy : db.Tidy)
    (open' : ∀ child ∈ children, db.run? child.id = some child ∧ child.status = .running ∧ child.parentRunId = some runId)
    (shut : ∀ row, db.run? runId = some row → row.status ≠ .running) :
    Ensures (· = db) (children.forM fun child => applyParentClosePolicy close child now) fun _ => TreatsChildren now children db := by
  induction children generalizing db with
  | nil =>
    refine .pure ?_
    rintro _ rfl
    exact ⟨rfl, by simp, by simp, fun _ _ => rfl⟩
  | cons child rest ih =>
    obtain ⟨found, running, hangs⟩ := open' child List.mem_cons_self
    simp only [List.map_cons, List.nodup_cons, List.mem_map, not_exists, not_and] at distinct
    have apart : ∀ other ∈ rest, child.id ≠ other.id := fun other listed same => distinct.1 other listed same.symm
    have above : ∀ other ∈ child :: rest, db.parentOf other.id = some runId := by
      intro other listed
      obtain ⟨found, -, named⟩ := open' other listed
      rw [Database.parentOf, found]
      exact named
    have treats : Ensures (· = db) (applyParentClosePolicy close child now) fun _ => TreatsChild now child db :=
      applyParentClosePolicy_treats closes tidy found running hangs shut
    have kept : Keeps KeepsTidy (applyParentClosePolicy close child now) :=
      applyParentClosePolicy_kept keepsTidy_whole.toFrame.log keeps child
    refine .then (treats.kept kept) ?_
    rintro _ middle ⟨first, tidied⟩
    have hangs' := above child List.mem_cons_self
    refine (ih distinct.2 (tidied tidy) (fun other listed => ?_) fun row foundTop => ?_).mono (fun _ => id)
      fun _ db' others => .cons tidy first others apart hangs' fun other listed => above other (List.mem_cons_of_mem _ listed)
    · obtain ⟨found', rest'⟩ := open' other (List.mem_cons_of_mem _ listed)
      have outside : ¬ Under db.parentOf child.id other.id := fun under =>
        apart other listed (under.siblings tidy.ordered .refl hangs' (above other (List.mem_cons_of_mem _ listed)))
      exact ⟨(congrArg RunView.row (first.frame other.id outside)).trans found', rest'⟩
    · have outside : ¬ Under db.parentOf child.id runId := Forest.Under.notUp tidy.ordered hangs'
      exact shut row ((congrArg RunView.row (first.frame runId outside)).symm.trans foundTop)

theorem Database.mem_openChildren (db : Database) (distinct : (db.runs.map RunRow.id).Nodup) :
    ∀ child ∈ db.openChildren runId, db.run? child.id = some child ∧ child.status = .running ∧ child.parentRunId = some runId := by
  intro child member
  obtain ⟨held, hangs, running⟩ : child ∈ db.runs ∧ child.parentRunId = some runId ∧ child.status = .running := by
    simpa [Database.openChildren, and_assoc] using member
  exact ⟨Database.mem_run? distinct held, running, hangs⟩

/-- The database once the row of a closing run is folded and its waiting tasks are withdrawn. -/
theorem Database.folded_view {row : RunRow} {next : RunProjection} {event : WorkflowEvent} (found : db.run? runId = some row)
    (running : row.status = .running) (outcome : terminalStateFor event = some next.state ∧
      next.result = closingResult row.result event ∧ next.error = closingError row.error event) :
    (db.view runId).ClosedBy event (((db.updateRun runId (·.withProjection next)).withdrawTasks runId).view runId) := by
  have folded : (db.updateRun runId (·.withProjection next)).run? runId = some (row.withProjection next) := by
    rw [Database.updateRun_run? (·.withProjection next) fun _ => rfl, if_pos rfl, found]
    rfl
  rw [Database.withdrawTasks_own]
  exact ⟨⟨row, row.withProjection next, found, running, folded, outcome.1, outcome.2.1, outcome.2.2, rfl⟩, rfl⟩

/-- A closed run, its parent told and its open children treated, makes a whole closing. -/
theorem ClosesTree.assemble {event : WorkflowEvent} {folded notified db' : Database} {row : RunRow} {next : RunProjection}
    (tidy : db.Tidy) (found : db.run? runId = some row) (running : row.status = .running)
    (outcome : terminalStateFor event = some next.state ∧ next.result = closingResult row.result event ∧
      next.error = closingError row.error event) (folds : folded = (db.updateRun runId (·.withProjection next)).withdrawTasks runId)
    (runs : notified.runs = folded.runs) (quiet : ∀ other, folded.parentOf runId ≠ some other → notified.view other = folded.view other)
    (tells : ∀ parent, folded.parentOf runId = some parent → TellsParent now folded notified runId parent)
    (treats : TreatsChildren now (notified.openChildren runId) notified db') : ClosesTree now runId event db db' := by
  have identities : folded.runs.map RunRow.identity = db.runs.map RunRow.identity := by
    rw [folds]
    exact Database.updateRun_identity next
  have identities' : notified.runs.map RunRow.identity = db.runs.map RunRow.identity := by rw [runs, identities]
  have parents : folded.parentOf = db.parentOf := Database.parentOf_same identities
  have parents' : notified.parentOf = db.parentOf := Database.parentOf_same identities'
  have away : ∀ other, other ≠ runId → folded.view other = db.view other := by
    intro other apart
    rw [folds, Database.withdrawTasks_view apart]
    exact Database.updateRun_view (fun _ => rfl) apart
  have closed : (db.view runId).ClosedBy event (folded.view runId) := folds ▸ Database.folded_view found running outcome
  rw [parents] at quiet tells
  -- what the tables say of runs below the closed one stays until its children are treated
  have strict : ∀ other, Under db.parentOf runId other → other ≠ runId → notified.view other = db.view other := by
    intro other under apart
    have up : db.parentOf runId ≠ some other := by
      intro named
      exact absurd (under.le tidy.ordered) (not_le.mpr (tidy.ordered _ _ named))
    rw [quiet other up, away other apart]
  have own : notified.view runId = folded.view runId :=
    quiet runId fun named => lt_irrefl _ (tidy.ordered _ _ named)
  have distinct : (notified.runs.map RunRow.id).Nodup := by
    have ids := congrArg (List.map RunRow.id) identities'
    simp only [List.map_map] at ids
    change notified.runs.map RunRow.id = db.runs.map RunRow.id at ids
    exact ids ▸ tidy.distinct
  have children : ∀ child ∈ notified.openChildren runId, notified.run? child.id = some child ∧
      child.status = .running ∧ child.parentRunId = some runId := notified.mem_openChildren distinct
  have listed : ∀ child ∈ notified.openChildren runId, db.parentOf child.id = some runId := by
    intro child member
    obtain ⟨found, -, hangs⟩ := children child member
    rw [← parents', Database.parentOf, found]
    exact hangs
  have outside : ∀ other, (∀ child ∈ notified.openChildren runId, ¬ Under db.parentOf child.id other) →
      db'.view other = notified.view other := by
    intro other free
    exact treats.frame other (parents'.symm ▸ free)
  have top : ∀ child ∈ notified.openChildren runId, ¬ Under db.parentOf child.id runId :=
    fun child member => Forest.Under.notUp tidy.ordered (listed child member)
  have last : db'.view runId = folded.view runId := (outside runId top).trans own
  refine ⟨treats.identities.trans identities', ?_, last ▸ closed, fun parent named => ?_, fun other under apart => ?_,
    fun other free up => ?_⟩
  · have stored : (folded.view runId).stored = db.storedEvents runId := by rw [folds]; rfl
    exact (congrArg RunView.stored last).trans stored
  · have lower := tidy.ordered _ _ named
    have free : ∀ child ∈ notified.openChildren runId, ¬ Under db.parentOf child.id parent := by
      intro child member under
      have above := tidy.ordered _ _ (listed child member)
      exact absurd (under.le tidy.ordered) (not_le.mpr (lower.trans above))
    refine (tells parent named).congr identities.symm ?_ (away parent lower.ne).symm (outside parent free)
    exact (congrArg RunView.row last).trans (congrArg RunView.row own).symm
  · obtain ⟨child, hangs, below⟩ := under.child apart
    have apart' : child ≠ runId := (tidy.ordered _ _ hangs).ne'
    have reaches : ∀ node, Under db.parentOf child node → notified.view node = db.view node := by
      intro node under
      refine strict node (under.lift hangs) fun same => ?_
      exact Forest.Under.notUp tidy.ordered hangs (same ▸ under)
    obtain ⟨held, foundChild, named⟩ := Option.bind_eq_some_iff.mp hangs
    have foundChild' : notified.run? child = some held := (congrArg RunView.row (reaches child .refl)).trans foundChild
    have id := Database.run?_id foundChild
    by_cases open' : held.status = .running
    · have member : held ∈ notified.openChildren runId := by
        simpa [Database.openChildren, named, open'] using Database.run?_mem foundChild'
      by_cases same : other = child
      · subst same
        refine ⟨fun row parent found' _ _ _ => ?_, fun stays => absurd ?_ (stays held runId foundChild open' named)⟩
        · cases foundChild.symm.trans found'
          have meets := treats.meets held member
          rw [id, reaches _ .refl] at meets
          exact meets
        · obtain ⟨row, row', found', running', foundRow', by'⟩ := closed.row
          refine ⟨row, row', found', running', (congrArg RunView.row last).trans foundRow', ?_⟩
          exact (isTerminalState_iff _).mp (terminalStateFor_terminal _ _ by'.state)
      · have treated := treats.below held member other (by rw [parents', id]; exact below) (by rw [id]; exact same)
        refine treated.congr (reaches other below).symm rfl fun parent named' => ?_
        rw [parents'] at named'
        obtain ⟨up, named'', above⟩ := below.above same
        cases named'.symm.trans named''
        exact ⟨(congrArg RunView.row (reaches parent above)).symm, rfl⟩
    · -- a closed child keeps what hangs below it
      have free : ∀ node, Under db.parentOf child node → db'.view node = db.view node := by
        intro node under
        refine (outside node fun listed' member under' => open' ?_).trans (reaches node under)
        have same := under.siblings tidy.ordered under' hangs (listed listed' member)
        obtain ⟨found', running', -⟩ := children listed' member
        rw [← same, foundChild'] at found'
        cases found'
        exact running'
      by_cases same : other = child
      · subst same
        refine ⟨fun row parent found' running' _ _ => ?_, fun _ => free _ .refl⟩
        cases foundChild.symm.trans found'
        exact absurd running' open'
      · refine .untouched (free other below) fun parent named' => ?_
        obtain ⟨up, named'', above⟩ := below.above same
        cases named'.symm.trans named''
        exact congrArg RunView.row (free parent above)
  · have apart : other ≠ runId := fun same => free (same ▸ .refl)
    rw [outside other fun child member under => free (under.lift (listed child member)), quiet other up, away other apart]

/-- The closing of a run, by induction on how deep its children may go. -/
theorem closeRunIfTerminal_closes (depth : Nat) {row : RunRow} {stored : EventRow} (tidy : db.Tidy)
    (found : db.run? runId = some row) (running : row.status = .running) (listed : stored ∈ db.storedEvents runId)
    (unseen : row.lastSequenceNumber < stored.sequenceNumber) (closing : stored.event.isClosing = true) :
    Ensures (· = db) (closeRunIfTerminal now depth runId) fun _ => ClosesTree now runId stored.event db := by
  induction depth generalizing db runId row stored with
  | zero => exact .raise
  | succ depth ih =>
    refine .then (refreshProjection_spec.kept (refreshProjection_kept keepsTidy_whole.toFrame.log runId)) ?_
    rintro next _ ⟨⟨row', found', folds, rfl⟩, tidied⟩
    cases found.symm.trans found'
    have outcome := foldRunEvents_closes folds (Database.mem_unseen.mpr ⟨listed, unseen⟩) closing
    rw [if_pos (terminalStateFor_terminal _ _ outcome.1)]
    refine .wrote ?_
    have tidy' : ((db.updateRun runId (·.withProjection next)).withdrawTasks runId).Tidy :=
      keepsTidy_whole.withdrawn _ _ (tidied tidy)
    have folded : ((db.updateRun runId (·.withProjection next)).withdrawTasks runId).run? runId =
        some (row.withProjection next) := by
      change (db.updateRun runId (·.withProjection next)).run? runId = _
      rw [Database.updateRun_run? (·.withProjection next) fun _ => rfl, if_pos rfl, found]
      rfl
    refine .then ((notifyParent_tells tidy' folded rfl).kept (notifyParent_kept keepsTidy_whole.toFrame.log runId next)) ?_
    rintro _ notified ⟨⟨runs, quiet, tells⟩, tidied'⟩
    have tidy'' := tidied' tidy'
    have shut : ∀ row, notified.run? runId = some row → row.status ≠ .running := by
      intro row found'
      rw [Database.run?, runs] at found'
      cases folded.symm.trans found'
      exact (isTerminalState_iff _).mp (terminalStateFor_terminal _ _ outcome.1)
    refine .read ?_
    refine (applyParentClosePolicies_treats (notified.openChildren runId)
      (fun db runId row stored tidy found running listed unseen closing => ih tidy found running listed unseen closing)
      (fun runId => closeRunIfTerminal_kept keepsTidy_whole.toFrame.log depth runId)
      (List.Nodup.sublist (List.filter_sublist.map _) tidy''.distinct) tidy''
      (notified.mem_openChildren tidy''.distinct) shut).mono (fun _ => id) fun _ db' treated => ?_
    exact .assemble tidy found running outcome rfl runs quiet tells treated

/-- The closing of a run. -/
theorem closeRun_closes {row : RunRow} {stored : EventRow} (tidy : db.Tidy) (found : db.run? runId = some row)
    (running : row.status = .running) (listed : stored ∈ db.storedEvents runId)
    (unseen : row.lastSequenceNumber < stored.sequenceNumber) (closing : stored.event.isClosing = true) :
    Ensures (· = db) (closeRun runId now) fun _ => ClosesTree now runId stored.event db := by
  intro session answer session' same ran
  exact closeRunIfTerminal_closes _ tidy found running listed unseen closing session answer session' same ran

/-- A run that falls with another meets its policy, because its parent falls. -/
theorem ClosesTree.brought {event : WorkflowEvent} {db' : Database} {other : RunId} (closes : ClosesTree now runId event db db')
    (apart : other ≠ runId) (falls : Falls (db.run? other) (db'.run? other)) : Under db.parentOf runId other ∧
      ∃ row parent, db.run? other = some row ∧ db.parentOf other = some parent ∧ Falls (db.run? parent) (db'.run? parent) ∧
        MeetsPolicy now row (db.view other) (db'.view other) := by
  have stays (same : db'.view other = db.view other) : False := by
    have row : db'.run? other = db.run? other := congrArg RunView.row same
    rw [row] at falls
    exact Falls.changes falls
  by_cases under : Under db.parentOf runId other
  · refine ⟨under, ?_⟩
    by_contra none'
    refine stays ((closes.below other under apart).alone fun row parent found running named falls' => none' ?_)
    have hangs : db.parentOf other = some parent := by
      rw [Database.parentOf, found]
      exact named
    exact ⟨row, parent, found, hangs, falls', (closes.below other under apart).meets row parent found running named falls'⟩
  · by_cases up : db.parentOf runId = some other
    · cases closes.tells other up with
      | told found running link found' final woken =>
        have row : db'.run? other = db.run? other := congrArg RunView.row woken
        rw [row] at falls
        exact absurd falls Falls.changes
      | goesOn found' status kept => exact (stays kept).elim
      | deaf shut kept => exact (stays kept).elim
    · exact (stays (closes.frame other under up)).elim

end Closing

end DurableExecution.Engine

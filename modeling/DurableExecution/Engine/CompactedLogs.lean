import DurableExecution.Engine.ProjectionStore

/-
This file shows what a closed run says before and after any number of compactions, while
other calls fold its log, and that its snapshot reads back as it was written.
-/

namespace DurableExecution.Engine

open Workflow (JsValue RecordedError Instant)
open Transaction

section Snapshots

/-- `RUN_STATES`. -/
def runStates : List RunState :=
  [.running, .completed, .failed, .timedOut, .cancelled, .terminated, .continuedAsNew]

/-- A state as `workflow_runs.status` and snapshots store it. -/
def RunState.text : RunState → String
  | .running => "RUNNING"
  | .completed => "COMPLETED"
  | .failed => "FAILED"
  | .timedOut => "TIMED_OUT"
  | .cancelled => "CANCELLED"
  | .terminated => "TERMINATED"
  | .continuedAsNew => "CONTINUED_AS_NEW"

def toRunState (status : String) : Except String RunState :=
  match runStates.find? fun candidate => candidate.text == status with
  | some state => .ok state
  | none => .error ("unknown run status \"" ++ status ++ "\" in snapshot")

/-- A projection as its JSON text reads back. The text of a date stands for its instant. -/
structure StoredProjection where
  state : String
  input : JsValue
  result : JsValue
  error : Option RecordedError
  closedAt : Option Instant
  lastSequenceNumber : Nat

def serializeProjection (projection : RunProjection) : StoredProjection where
  state := projection.state.text
  input := projection.input.stored
  result := projection.result.stored
  error := projection.error
  closedAt := projection.closedAt
  lastSequenceNumber := projection.lastSequenceNumber

def deserializeProjection (value : StoredProjection) : Except String RunProjection := do
  let state ← toRunState value.state
  pure ⟨state, value.input, value.result, value.error, value.closedAt, value.lastSequenceNumber⟩

theorem toRunState_text (state : RunState) : toRunState state.text = .ok state := by
  cases state <;> rfl

theorem deserializeProjection_serialized (projection : RunProjection) :
    deserializeProjection (serializeProjection projection) = .ok projection.reread := by
  unfold deserializeProjection serializeProjection
  rw [toRunState_text]
  rfl

end Snapshots

section Operations

/-- How many events were pruned from the log of a run. -/
def Database.prunedEventCount (db : Database) (runId : RunId) : Nat :=
  ((db.snapshots.find? fun snapshot => snapshot.runId == runId).map SnapshotRow.prunedEventCount).getD 0

/-- A call of `foldInto` while nothing else runs. -/
def foldIntoOn (runId : RunId) (kind : FoldKind) (db : Database) : FoldPhase × Database :=
  let observed := (FoldPhase.starting kind).advance runId none db
  let loaded := observed.1.advance runId none observed.2
  loaded.1.advance runId none loaded.2

/-- One statement or transaction on a run to whose log nothing is appended. -/
inductive CompactionStep (runId : RunId) (world : FoldWorld) : FoldWorld → Prop where
  | starts (caller : Nat) (kind : FoldKind) :
      CompactionStep runId world { world with calls := Function.update world.calls caller (.starting kind) }
  | advances (caller : Nat) (budget : Option Nat) :
      CompactionStep runId world ⟨((world.calls caller).advance runId budget world.db).2,
        Function.update world.calls caller ((world.calls caller).advance runId budget world.db).1⟩
  | fails (caller : Nat) :
      CompactionStep runId world { world with calls := Function.update world.calls caller .rejected }
  | compacts (tailEvents : Nat) (budget : Option Nat) :
      CompactionStep runId world
        { world with db := (withTransaction (compactRunOn tailEvents runId) budget world.db).2 }
  | elsewhere (db : Database) (events : db.storedEvents runId = world.db.storedEvents runId)
      (snapshots : (db.snapshots.find? fun row => row.runId == runId) =
        world.db.snapshots.find? fun row => row.runId == runId)
      (row : (db.run? runId).map projectionFromRow = (world.db.run? runId).map projectionFromRow) :
      CompactionStep runId world { world with db := db }

/-- What happens to a closed run from some time on. -/
def CompactionRun (runId : RunId) : FoldWorld → FoldWorld → Prop := Relation.ReflTransGen (CompactionStep runId)

end Operations

section Invariant

variable {runId : RunId} {history : List EventRow} {projection start next : RunProjection} {db : Database}
  {kind : FoldKind} {events : List EventRow}

/-- The tables of a closed run whose whole log folds to its row. -/
structure Compacted (runId : RunId) (history : List EventRow) (projection : RunProjection) (db : Database) : Prop where
  projected : Projected runId history db
  accepted : foldRunEvents history createInitialProjection = .ok projection
  closed : projection.state ≠ .running
  row : ∃ row, db.run? runId = some row ∧ projectionFromRow row = projection
  counted : db.prunedEventCount runId = (db.base runId).lastSequenceNumber

/-- What a call has loaded of a log to which nothing is appended. -/
def LoadedWhole (history : List EventRow) (db : Database) (runId : RunId) (start : RunProjection)
    (events : List EventRow) : Prop :=
  ∃ known, known ≤ (db.base runId).lastSequenceNumber ∧ events = history.drop (max known start.lastSequenceNumber)

theorem LoadedWhole.loaded (loaded : LoadedWhole history db runId start events)
    (projected : Projected runId history db) : Loaded history db runId start events := by
  obtain ⟨known, below, rfl⟩ := loaded
  exact ⟨known, history.length, below, projected.nonempty, le_rfl, by rw [List.take_length]⟩

theorem Projected.loadsWhole (projected : Projected runId history db) (start : RunProjection) :
    LoadedWhole history db runId start (db.unseen runId start.lastSequenceNumber) :=
  ⟨_, le_rfl, projected.unseen _⟩

/-- A closed run whose log is accepted has folded all of it. -/
theorem Projected.closed_whole (projected : Projected runId history db) {row : RunRow}
    (found : db.run? runId = some row) (closed : row.status ≠ .running)
    (accepted : foldRunEvents history createInitialProjection = .ok projection) : projectionFromRow row = projection := by
  obtain ⟨row', found', folded, -⟩ := projected.row
  cases found.symm.trans found'
  rcases folded with ⟨-, -, created⟩ | ⟨-, folds⟩
  · exact absurd (congrArg RunProjection.state created) closed
  · rw [← List.take_append_drop row.lastSequenceNumber history, foldRunEvents_append, folds] at accepted
    change foldRunEvents _ (projectionFromRow row) = _ at accepted
    have nothing := foldRunEvents_closed (show (projectionFromRow row).state ≠ .running from closed) accepted
    rw [nothing] at accepted
    cases accepted
    rfl

theorem Compacted.length (compacted : Compacted runId history projection db) : projection.lastSequenceNumber = history.length := by
  have counted := foldRunEvents_counts compacted.accepted
  rwa [createInitialProjection, Nat.zero_add] at counted

/-- Whatever a call loads of a closed run folds to its row. -/
theorem Compacted.folds (compacted : Compacted runId history projection db) (from' : db.startFrom runId kind = some start)
    {observed : RunProjection} (unmoved : start.lastSequenceNumber = observed.lastSequenceNumber)
    (loaded : LoadedWhole history db runId observed events) : foldRunEvents events start = .ok projection := by
  obtain ⟨known, below, rfl⟩ := loaded
  obtain ⟨lower, upper, -, begins⟩ := compacted.projected.startFrom from'
  have place : max known observed.lastSequenceNumber = start.lastSequenceNumber := by
    rw [← unmoved]
    exact max_eq_right (le_trans below lower)
  rw [place]
  have begins' : foldRunEvents (history.take start.lastSequenceNumber) createInitialProjection = .ok start := by
    rcases begins with ⟨zero, before, created⟩ | begins
    · -- only the row of an open run has folded nothing
      cases kind with
      | rebuild =>
        have base := compacted.projected.base
        rw [Database.startFrom] at from'
        obtain ⟨row, -, rfl⟩ := Option.map_eq_some_iff.mp from'
        exact base
      | refresh =>
        obtain ⟨row, found, same⟩ := compacted.row
        rw [Database.startFrom, found] at from'
        cases from'
        have closed := compacted.closed
        rw [← same] at closed
        exact absurd (congrArg RunProjection.state created) closed
    · exact begins
  have accepted := compacted.accepted
  rw [← List.take_append_drop start.lastSequenceNumber history, foldRunEvents_append, begins'] at accepted
  exact accepted

theorem Compacted.stored (compacted : Compacted runId history projection db) : projection.Stored := by
  refine foldRunEvents_stored (fun stored member => compacted.projected.decoded stored member)
    createInitialProjection_stored compacted.accepted

/-- The row of a closed run is written with what it holds. -/
theorem Compacted.written (compacted : Compacted runId history projection db) :
    Compacted runId history projection (db.updateRun runId (·.withProjection projection)) := by
  have length := compacted.length
  have projected := compacted.projected
  refine ⟨(projected.written (le_of_eq length) (length ▸ projected.pruned) ?_ ?_).projected, compacted.accepted,
    compacted.closed, ?_, compacted.counted⟩
  · rw [length]
    exact Nat.one_le_iff_ne_zero.mp projected.nonempty
  · rw [length, List.take_length]
    exact compacted.accepted
  · obtain ⟨row, found, -⟩ := compacted.row
    refine ⟨row.withProjection projection, ?_, rfl⟩
    rw [Database.updateRun_run? (·.withProjection projection) fun _ => rfl, if_pos rfl, found]
    rfl

/-- What a compaction does to a closed run. -/
theorem Compacted.compacts (compacted : Compacted runId history projection db) {tailEvents : Nat} :
    Ensures (· = db) (compactRunOn tailEvents runId) fun result db' => Compacted runId history projection db' ∧
      result.compacted = true ∧ result.prunedEvents = (db.storedEvents runId).length - tailEvents ∧
      (db'.base runId).lastSequenceNumber = (db.base runId).lastSequenceNumber + result.prunedEvents := by
  have projected := compacted.projected
  refine fun session result session' held ran => ?_
  have outcome := compactRunOn_effect session result session' held ran
  have grown := projected.compacts session result session' held ran
  generalize session'.store = db' at outcome grown ⊢
  obtain ⟨row, found, same⟩ := compacted.row
  rcases outcome with ⟨-, -, running⟩ | ⟨row', folded, count, found', -, folds, counts, pruned, done, rfl⟩
  · have closed := compacted.closed
    rw [← same] at closed
    exact absurd (running row found) closed
  · rw [projected.unseen_base] at folds pruned
    have counted := foldRunEvents_counts folds
    rw [List.length_take, Nat.min_eq_left (Nat.sub_le _ _), ← pruned] at counted
    have snapshot : (((db.upsertSnapshot ⟨runId, folded.lastSequenceNumber, count, folded⟩).deleteEvents runId
        folded.lastSequenceNumber).snapshots.find? fun row => row.runId == runId) =
          some ⟨runId, folded.lastSequenceNumber, count, folded⟩ := by
      change ((db.upsertSnapshot _).snapshots.find? _) = _
      rw [Database.upsertSnapshot_find, if_pos rfl]
    have base : ((db.upsertSnapshot ⟨runId, folded.lastSequenceNumber, count, folded⟩).deleteEvents runId
        folded.lastSequenceNumber).base runId = folded := by
      rw [Database.base, snapshot]
      rfl
    refine ⟨⟨grown.projected, compacted.accepted, compacted.closed, ⟨row, ?_, same⟩, ?_⟩, done, pruned, ?_⟩
    · rw [← found]
      unfold Database.upsertSnapshot
      split <;> rfl
    · rw [base, Database.prunedEventCount, snapshot, counted, ← compacted.counted]
      exact counts
    · rw [base]
      exact counted

theorem Compacted.elsewhere (compacted : Compacted runId history projection db) {db' : Database}
    (events : db'.storedEvents runId = db.storedEvents runId) (snapshots : (db'.snapshots.find? fun row => row.runId == runId) =
      db.snapshots.find? fun row => row.runId == runId)
    (row : (db'.run? runId).map projectionFromRow = (db.run? runId).map projectionFromRow) :
    Compacted runId history projection db' ∧ db'.base runId = db.base runId := by
  have base : db'.base runId = db.base runId := by
    rw [Database.base, snapshots]
    rfl
  have projected := (compacted.projected.elsewhere events snapshots row).projected
  refine ⟨⟨projected, compacted.accepted, compacted.closed, ?_, ?_⟩, base⟩
  · obtain ⟨old, found, same⟩ := compacted.row
    rw [found] at row
    obtain ⟨new, found', same'⟩ := Option.map_eq_some_iff.mp row
    exact ⟨new, found', same'.trans same⟩
  · rw [base, Database.prunedEventCount, snapshots]
    exact compacted.counted

end Invariant

section Runs

variable {runId : RunId} {history : List EventRow} {projection : RunProjection} {world world' : FoldWorld}

/-- What holds of a closed run and of all calls that fold its log. -/
structure FoldWorld.Compacted (runId : RunId) (history : List EventRow) (projection : RunProjection)
    (world : FoldWorld) : Prop where
  tables : Engine.Compacted runId history projection world.db
  loaded : ∀ caller kind start events, world.calls caller = .loaded kind start events →
    LoadedWhole history world.db runId start events
  returned : ∀ caller answer, world.calls caller = .returned answer → answer = projection

/-- The tables go on, and no less is pruned. -/
theorem FoldWorld.Compacted.wrote (compacted : world.Compacted runId history projection) {db : Database}
    (tables : Engine.Compacted runId history projection db)
    (further : (world.db.base runId).lastSequenceNumber ≤ (db.base runId).lastSequenceNumber) :
    FoldWorld.Compacted runId history projection { world with db := db } := by
  refine ⟨tables, fun caller kind start events at' => ?_, compacted.returned⟩
  obtain ⟨known, below, rest⟩ := compacted.loaded caller kind start events at'
  exact ⟨known, le_trans below further, rest⟩

/-- One call is moved to a phase whose answer, if any, is the row of the run. -/
theorem FoldWorld.Compacted.moved (compacted : world.Compacted runId history projection) (caller : Nat)
    (phase : FoldPhase) (loaded : ∀ kind start events, phase = .loaded kind start events →
      LoadedWhole history world.db runId start events)
    (returned : ∀ answer, phase = .returned answer → answer = projection) :
    FoldWorld.Compacted runId history projection
      { world with calls := Function.update world.calls caller phase } := by
  refine ⟨compacted.tables, fun other kind start events at' => ?_, fun other answer at' => ?_⟩
  · simp only [Function.update_apply] at at'
    split at at'
    · exact loaded kind start events at'
    · exact compacted.loaded other kind start events at'
  · simp only [Function.update_apply] at at'
    split at at'
    · exact returned answer at'
    · exact compacted.returned other answer at'

/-- The next statement of a call: it leaves what is pruned, and its answer is the row of the run. -/
theorem FoldWorld.Compacted.advances (compacted : world.Compacted runId history projection) (caller : Nat) (budget : Option Nat) :
    FoldWorld.Compacted runId history projection ⟨((world.calls caller).advance runId budget world.db).2,
      Function.update world.calls caller ((world.calls caller).advance runId budget world.db).1⟩ ∧
    ((world.calls caller).advance runId budget world.db).2.base runId = world.db.base runId := by
  cases phase : world.calls caller with
  | starting kind =>
    simp only [FoldPhase.advance]
    split
    · exact ⟨compacted.moved caller _ (by rintro _ _ _ ⟨⟩) (by rintro _ ⟨⟩), rfl⟩
    · exact ⟨compacted.moved caller _ (by rintro _ _ _ ⟨⟩) (by rintro _ ⟨⟩), rfl⟩
  | observed kind start =>
    refine ⟨compacted.moved caller _ (fun kind' start' events' same => ?_) (by rintro _ ⟨⟩), rfl⟩
    cases same
    exact compacted.tables.projected.loadsWhole start
  | loaded kind start events =>
    have whole := compacted.loaded caller kind start events phase
    simp only [FoldPhase.advance]
    rcases withTransaction_cases foldTransactionOn_spec budget world.db rfl with
      ⟨fault, failed⟩ | ⟨answer, db', done, kept⟩
    · rw [failed]
      exact ⟨compacted.moved caller _ (by rintro _ _ _ ⟨⟩) (by rintro _ ⟨⟩), rfl⟩
    · rw [done]
      cases answer with
      | none =>
        obtain rfl : db' = world.db := kept
        exact ⟨compacted.moved caller _ (by rintro _ _ _ ⟨⟩) (by rintro _ ⟨⟩), rfl⟩
      | some next =>
        obtain ⟨start', from', unmoved, folds, rfl⟩ := kept
        have same : next = projection := by
          have folds' := compacted.tables.folds from' unmoved whole
          rw [folds] at folds'
          exact Except.ok.inj folds'
        have stored : next.reread = next := same ▸ compacted.tables.stored
        rw [stored, same]
        have written := compacted.wrote compacted.tables.written le_rfl
        exact ⟨written.moved caller _ (by rintro _ _ _ ⟨⟩) (fun _ same => by cases same; rfl), rfl⟩
  | returned answer =>
    have own := compacted.returned caller answer phase
    exact ⟨compacted.moved caller _ (by rintro _ _ _ ⟨⟩) (fun _ same => by cases same; exact own), rfl⟩
  | rejected => exact ⟨compacted.moved caller _ (by rintro _ _ _ ⟨⟩) (by rintro _ ⟨⟩), rfl⟩

theorem FoldWorld.Compacted.step (compacted : world.Compacted runId history projection)
    (step : CompactionStep runId world world') : world'.Compacted runId history projection ∧
      (world.db.base runId).lastSequenceNumber ≤ (world'.db.base runId).lastSequenceNumber := by
  cases step with
  | starts caller kind =>
    exact ⟨compacted.moved caller _ (fun _ _ _ same => nomatch same) (fun _ same => nomatch same), le_rfl⟩
  | advances caller budget =>
    obtain ⟨advanced, base⟩ := compacted.advances caller budget
    exact ⟨advanced, le_of_eq (congrArg RunProjection.lastSequenceNumber base).symm⟩
  | fails caller =>
    exact ⟨compacted.moved caller _ (fun _ _ _ same => nomatch same) (fun _ same => nomatch same), le_rfl⟩
  | compacts tailEvents budget =>
    rcases withTransaction_cases compacted.tables.compacts budget world.db rfl with
      ⟨fault, failed⟩ | ⟨result, db', done, tables, -, -, further⟩
    · rw [failed]
      exact ⟨compacted, le_rfl⟩
    · rw [done]
      have further' : (world.db.base runId).lastSequenceNumber ≤ (db'.base runId).lastSequenceNumber := by
        rw [further]
        exact Nat.le_add_right _ _
      exact ⟨compacted.wrote tables further', further'⟩
  | elsewhere db events snapshots row =>
    obtain ⟨tables, base⟩ := compacted.tables.elsewhere events snapshots row
    have same := le_of_eq (congrArg RunProjection.lastSequenceNumber base).symm
    exact ⟨compacted.wrote tables same, same⟩

theorem CompactionRun.compacted (run : CompactionRun runId world world')
    (compacted : world.Compacted runId history projection) : world'.Compacted runId history projection ∧
      (world.db.base runId).lastSequenceNumber ≤ (world'.db.base runId).lastSequenceNumber := by
  induction run with
  | refl => exact ⟨compacted, le_rfl⟩
  | tail run step ih =>
    obtain ⟨next, further⟩ := ih.1.step step
    exact ⟨next, le_trans ih.2 further⟩

/-- A call that runs alone answers with the row of the run. -/
theorem Compacted.foldInto {db : Database} (compacted : Compacted runId history projection db) (kind : FoldKind) :
    (foldIntoOn runId kind db).1 = .returned projection := by
  obtain ⟨row, found, -⟩ := compacted.row
  obtain ⟨start, from'⟩ : ∃ start, db.startFrom runId kind = some start := by
    rw [Database.startFrom, found]
    exact ⟨_, rfl⟩
  have folds := compacted.folds from' rfl (compacted.projected.loadsWhole start)
  have answered : foldTransactionOn runId kind start (db.unseen runId start.lastSequenceNumber) ⟨db, none⟩ =
      .ok (some projection, ⟨db.updateRun runId (·.withProjection projection.reread), none⟩) := by
    unfold foldTransactionOn
    rw [select_answers, from']
    dsimp only
    rw [if_neg (not_not.mpr rfl), folds]
    rfl
  have committed := withTransaction_commits answered
  simp only [foldIntoOn, FoldPhase.advance, from', committed]

/-- The tables of a closed run that the engine created, before anything of its log is pruned. -/
theorem FoldRun.compacted {before : FoldWorld} (reached : FoldRun runId before) {row : RunRow}
    (found : before.db.run? runId = some row) (closed : row.status ≠ .running)
    (whole : (before.db.snapshots.find? fun row => row.runId == runId) = none)
    (accepted : foldRunEvents (before.db.storedEvents runId) createInitialProjection = .ok projection) :
    Compacted runId (before.db.storedEvents runId) projection before.db := by
  obtain ⟨history, projected, -⟩ := reached.holds
  have base : before.db.base runId = createInitialProjection := by
    rw [Database.base, whole]
    rfl
  have stored : before.db.storedEvents runId = history := by
    rw [projected.stored, base]
    rfl
  rw [stored] at accepted ⊢
  have same := projected.closed_whole found closed accepted
  refine ⟨projected, accepted, ?_, ⟨row, found, same⟩, ?_⟩
  · rw [← same]
    exact closed
  · rw [base, Database.prunedEventCount, whole]
    rfl

/-- Compactions keep what a closed run says, in any order with calls that fold its log: every
call that folds the log answers what the log said before, the log keeps its last events under
their numbers, a repeated compaction prunes nothing, and a failed one changes nothing. -/
theorem compaction_preserves {before : FoldWorld} (reached : FoldRun runId before) {row : RunRow}
    (found : before.db.run? runId = some row) (closed : row.status ≠ .running)
    (whole : (before.db.snapshots.find? fun row => row.runId == runId) = none)
    (accepted : foldRunEvents (before.db.storedEvents runId) createInitialProjection = .ok projection)
    (run : CompactionRun runId ⟨before.db, fun _ => .rejected⟩ world) :
    (∀ kind, (foldIntoOn runId kind world.db).1 = .returned projection) ∧
    (∀ caller answer, world.calls caller = .returned answer → answer = projection) ∧
    (∃ row, world.db.run? runId = some row ∧ projectionFromRow row = projection) ∧
    world.db.storedEvents runId = (before.db.storedEvents runId).drop (world.db.prunedEventCount runId) ∧
    world.db.prunedEventCount runId + (world.db.storedEvents runId).length =
      (before.db.storedEvents runId).length ∧
    world.db.currentSequence runId = before.db.currentSequence runId ∧
    deserializeProjection (serializeProjection (world.db.base runId)) = .ok (world.db.base runId) ∧
    ∀ tailEvents budget, match withTransaction (compactRunOn tailEvents runId) budget world.db with
      | (.error _, db) => db = world.db
      | (.ok result, db) => result.compacted = true ∧ ∀ later, CompactionRun runId ⟨db, world.calls⟩ later →
        ∀ tailEvents' budget', tailEvents ≤ tailEvents' →
          match withTransaction (compactRunOn tailEvents' runId) budget' later.db with
          | (.error _, db) => db = later.db
          | (.ok result, db) => result.prunedEvents = 0 ∧ db.storedEvents runId = later.db.storedEvents runId := by
  have tables := reached.compacted found closed whole accepted
  have began : FoldWorld.Compacted runId (before.db.storedEvents runId) projection ⟨before.db, fun _ => .rejected⟩ :=
    ⟨tables, fun _ _ _ _ same => (nomatch same), fun _ _ same => nomatch same⟩
  obtain ⟨compacted, -⟩ := run.compacted began
  have projected := compacted.tables.projected
  refine ⟨compacted.tables.foldInto, compacted.returned, compacted.tables.row, ?_, ?_, ?_, ?_, ?_⟩
  · rw [compacted.tables.counted]
    exact projected.stored
  · rw [compacted.tables.counted]
    exact projected.storedLength
  · rw [projected.current, tables.projected.current]
  · have stored : (world.db.base runId).Stored :=
      foldRunEvents_stored (fun stored member => projected.decoded stored (List.mem_of_mem_take member))
        createInitialProjection_stored projected.base
    rw [deserializeProjection_serialized, stored]
  · intro tailEvents budget
    rcases withTransaction_cases compacted.tables.compacts budget world.db rfl with
      ⟨fault, failed⟩ | ⟨result, db, done, tables', compacted', pruned, further⟩
    · rw [failed]
    · rw [done]
      refine ⟨compacted', fun later onward tailEvents' budget' longer => ?_⟩
      have middle := compacted.wrote tables' (further ▸ Nat.le_add_right _ _)
      obtain ⟨after, least⟩ := onward.compacted middle
      rcases withTransaction_cases after.tables.compacts budget' later.db rfl with
        ⟨fault, failed'⟩ | ⟨result', db', done', tables'', -, pruned', further'⟩
      · rw [failed']
      · rw [done']
        have first := projected.storedLength
        have second := tables'.projected.storedLength
        have third := after.tables.projected.storedLength
        change (db.base runId).lastSequenceNumber ≤ _ at least
        have nothing : result'.prunedEvents = 0 := by omega
        refine ⟨nothing, ?_⟩
        rw [tables''.projected.stored, after.tables.projected.stored, further', nothing]
        rfl

end Runs

/-- The run after it was terminated. -/
def terminatedRun : Database :=
  (withTransaction (appendAndRefreshOn 0 1 [.runTerminated none] .epoch) none startedRun).2

/-- The tables after a compaction that keeps the closing event. -/
def compactedRun : Database := (withTransaction (compactRunOn 1 0) none terminatedRun).2

theorem compaction_preserves_terminated : compactedRun.prunedEventCount 0 = 1 ∧
    (foldIntoOn 0 .rebuild compactedRun).1 =
      .returned { createInitialProjection with state := .terminated, closedAt := some .epoch, lastSequenceNumber := 2 } := by
  have created : CreatedRun 0 startedRun := ⟨⟨_, rfl, rfl, rfl⟩, ⟨"order", .null, .epoch, rfl, rfl⟩, rfl⟩
  have decoded : ∀ event ∈ [Workflow.WorkflowEvent.runTerminated none], Decoded event := by simp [Decoded]
  have reached : FoldRun 0 ⟨terminatedRun, fun _ => .rejected⟩ :=
    (FoldRun.created _ created).step (.appendsAndRefreshes 1 _ .epoch none decoded)
  have run : CompactionRun 0 ⟨terminatedRun, fun _ => .rejected⟩ ⟨compactedRun, fun _ => .rejected⟩ :=
    .single (.compacts 1 none)
  exact ⟨rfl, (compaction_preserves reached rfl (by decide) rfl rfl run).1 .rebuild⟩

end DurableExecution.Engine

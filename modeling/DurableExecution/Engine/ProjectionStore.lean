import DurableExecution.Engine.HistoryCompactor

/-
This file models the calls that bring the row of a run up to date with its log. They read
events before they lock the row, so their statements interleave with every other writer.
-/

namespace DurableExecution.Engine

open Workflow (JsValue WorkflowEvent Instant)
open Transaction

/-- What a projection reads back as after its columns were written as JSON. -/
def RunProjection.reread (projection : RunProjection) : RunProjection :=
  { projection with input := projection.input.stored, result := projection.result.stored }

/-- The two callers of `foldInto`, by where their fold starts. -/
inductive FoldKind where
  | refresh
  | rebuild

/-- A call of `foldInto` between its statements. -/
inductive FoldPhase where
  | starting (kind : FoldKind)
  | observed (kind : FoldKind) (start : RunProjection)
  | loaded (kind : FoldKind) (start : RunProjection) (events : List EventRow)
  | returned (answer : RunProjection)
  | rejected

structure FoldWorld where
  db : Database
  calls : Nat → FoldPhase

section Operations

/-- Where a fold starts: at the row of the run, or at its snapshot. -/
def Database.startFrom (db : Database) (runId : RunId) (kind : FoldKind) : Option RunProjection :=
  (db.run? runId).map fun row =>
    match kind with
    | .refresh => projectionFromRow row
    | .rebuild => db.base runId

/-- The transaction of `foldInto`. It answers nothing when the start has moved since it was
observed. -/
def foldTransactionOn (runId : RunId) (kind : FoldKind) (observed : RunProjection) (events : List EventRow) :
    Tx (Option RunProjection) := do
  match ← select fun db => db.startFrom runId kind with
  | none => raise (.missingRun runId)
  | some start =>
    if start.lastSequenceNumber ≠ observed.lastSequenceNumber then pure none
    else
      let next ← liftExcept (foldRunEvents events start)
      write fun db => db.updateRun runId (·.withProjection next.reread)
      pure (some next)

/-- The next statement of a call, or its whole transaction. -/
def FoldPhase.advance (runId : RunId) (budget : Option Nat) (db : Database) : FoldPhase → FoldPhase × Database
  | .starting kind =>
    match db.startFrom runId kind with
    | some start => (.observed kind start, db)
    | none => (.rejected, db)
  | .observed kind start => (.loaded kind start (db.unseen runId start.lastSequenceNumber), db)
  | .loaded kind start events =>
    match withTransaction (foldTransactionOn runId kind start events) budget db with
    | (.ok (some next), db) => (.returned next, db)
    | (.ok none, db) => (.starting kind, db)
    | (.error _, db) => (.rejected, db)
  | phase => (phase, db)

/-- `refreshProjectionOnClient` in a transaction that has appended to the log itself. -/
def appendAndRefreshOn (runId : RunId) (expectedSeq : Nat) (events : List WorkflowEvent) (now : Instant) :
    Tx RunProjection := do
  discard (appendEvents runId expectedSeq events now)
  refreshProjection runId

end Operations

/-- The codec read the values of this event from JSON. -/
def Decoded : WorkflowEvent → Prop
  | .runStarted _ input => input.stored = input
  | .runCompleted result => result.stored = result
  | _ => True

/-- The row of a run as the engine creates it: nothing was folded into it. -/
def RunRow.AsCreated (row : RunRow) : Prop :=
  row.input.stored = row.input ∧ projectionFromRow row = { createInitialProjection with input := row.input }

/-- A run as the engine creates it, with its first event. -/
structure CreatedRun (runId : RunId) (db : Database) : Prop where
  row : ∃ row, db.run? runId = some row ∧ row.AsCreated
  log : ∃ workflowType input createdAt, input.stored = input ∧
    db.storedEvents runId = [⟨runId, 1, .runStarted workflowType input, createdAt⟩]
  whole : (db.snapshots.find? fun row => row.runId == runId) = none

/-- One statement or transaction on a run: of a call of `foldInto`, of a writer of its log, of
a compaction, or of anything that leaves its log and its projection alone. -/
inductive FoldStep (runId : RunId) (world : FoldWorld) : FoldWorld → Prop where
  | starts (caller : Nat) (kind : FoldKind) :
      FoldStep runId world { world with calls := Function.update world.calls caller (.starting kind) }
  | advances (caller : Nat) (budget : Option Nat) :
      FoldStep runId world ⟨((world.calls caller).advance runId budget world.db).2,
        Function.update world.calls caller ((world.calls caller).advance runId budget world.db).1⟩
  | fails (caller : Nat) :
      FoldStep runId world { world with calls := Function.update world.calls caller .rejected }
  | appends (expectedSeq : Nat) (events : List WorkflowEvent) (now : Instant) (budget : Option Nat)
      (decoded : ∀ event ∈ events, Decoded event) :
      FoldStep runId world { world with
        db := (withTransaction (appendEvents runId expectedSeq events now) budget world.db).2 }
  | appendsAndRefreshes (expectedSeq : Nat) (events : List WorkflowEvent) (now : Instant) (budget : Option Nat)
      (decoded : ∀ event ∈ events, Decoded event) :
      FoldStep runId world { world with
        db := (withTransaction (appendAndRefreshOn runId expectedSeq events now) budget world.db).2 }
  | compacts (tailEvents : Nat) (budget : Option Nat) :
      FoldStep runId world { world with db := (withTransaction (compactRunOn tailEvents runId) budget world.db).2 }
  | elsewhere (db : Database) (events : db.storedEvents runId = world.db.storedEvents runId)
      (snapshots : (db.snapshots.find? fun row => row.runId == runId) =
        world.db.snapshots.find? fun row => row.runId == runId)
      (row : (db.run? runId).map projectionFromRow = (world.db.run? runId).map projectionFromRow) :
      FoldStep runId world { world with db := db }

inductive FoldRun (runId : RunId) : FoldWorld → Prop where
  | created (db : Database) (created : CreatedRun runId db) : FoldRun runId ⟨db, fun _ => .rejected⟩
  | step {world world' : FoldWorld} (run : FoldRun runId world) (step : FoldStep runId world world') :
      FoldRun runId world'

section Folding

variable {projection next start : RunProjection} {events more : List EventRow} {stored : EventRow}

theorem foldRunEvents_append : foldRunEvents (events ++ more) start =
    (foldRunEvents events start).bind (foldRunEvents more) := List.foldlM_append

/-- The JSON columns of the projection read back as they were written. -/
def RunProjection.Stored (projection : RunProjection) : Prop := projection.reread = projection

theorem RunProjection.stored_iff : projection.Stored ↔
    projection.input.stored = projection.input ∧ projection.result.stored = projection.result := by
  unfold RunProjection.Stored RunProjection.reread
  constructor
  · intro same
    exact ⟨congrArg RunProjection.input same, congrArg RunProjection.result same⟩
  · rintro ⟨input, result⟩
    rw [input, result]

theorem orEmpty_stored {value : JsValue} (stored : value.stored = value) : (JsValue.orEmpty value).stored = JsValue.orEmpty value := by
  cases value with
  | undefined => simp [JsValue.orEmpty, JsValue.stored, JsValue.jsonCopy, Workflow.jsonFields]
  | null => simp [JsValue.orEmpty, JsValue.stored, JsValue.jsonCopy, Workflow.jsonFields]
  | _ => exact stored

theorem orNull_stored {value : JsValue} (stored : value.stored = value) : (JsValue.orNull value).stored = JsValue.orNull value := by
  cases value with
  | undefined => simp [JsValue.orNull, JsValue.stored, JsValue.jsonCopy]
  | _ => exact stored

theorem createInitialProjection_stored : createInitialProjection.Stored :=
  RunProjection.stored_iff.mpr ⟨rfl, rfl⟩

/-- A decoded event keeps the columns of a projection in JSON. -/
theorem applyEventToProjection_stored (decoded : Decoded stored.event) (before : projection.Stored)
    (applied : applyEventToProjection projection stored = .ok next) : next.Stored := by
  obtain ⟨input, result⟩ := RunProjection.stored_iff.mp before
  refine RunProjection.stored_iff.mpr ?_
  unfold applyEventToProjection at applied
  split at applied
  · cases applied
  · split at applied
    · cases applied
    · split at applied
      · split at applied
        · split at applied
          · next same =>
              cases applied
              rw [same] at decoded
              exact ⟨input, orNull_stored decoded⟩
          · cases applied
            exact ⟨input, result⟩
          · cases applied
            exact ⟨input, result⟩
        · cases applied
      · split at applied
        · next same =>
            cases applied
            rw [same] at decoded
            exact ⟨orEmpty_stored decoded, result⟩
        · cases applied
          exact ⟨input, result⟩

theorem foldRunEvents_stored (decoded : ∀ stored ∈ events, Decoded stored.event) (before : start.Stored)
    (folded : foldRunEvents events start = .ok next) : next.Stored := by
  induction events generalizing start with
  | nil =>
    cases folded
    exact before
  | cons first rest ih =>
    simp only [foldRunEvents, List.foldlM_cons, bind, Except.bind] at folded
    split at folded
    · cases folded
    · next middle applied =>
        refine ih (fun stored member => decoded stored (List.mem_cons_of_mem _ member)) ?_ folded
        exact applyEventToProjection_stored (decoded first List.mem_cons_self) before applied

/-- The start of a run sets its input, whatever its row held before. -/
theorem foldRunEvents_created {workflowType : String} {input before : JsValue}
    (started : stored.event = .runStarted workflowType input) :
    foldRunEvents (stored :: events) { start with input := before } = foldRunEvents (stored :: events) start := by
  have applied : applyEventToProjection { start with input := before } stored =
      applyEventToProjection start stored := by
    unfold applyEventToProjection
    rw [started]
    rfl
  simp only [foldRunEvents, List.foldlM_cons, applied]

end Folding

section Invariant

variable {runId : RunId} {history : List EventRow} {db : Database} {kind : FoldKind} {start next : RunProjection}
  {events : List EventRow}

/-- The row of a run has folded the events up to its sequence number, or it is as it was created. -/
def RunRow.Folded (row : RunRow) (history : List EventRow) : Prop :=
  row.lastSequenceNumber = 0 ∧ row.AsCreated ∨ row.lastSequenceNumber ≠ 0 ∧
    foldRunEvents (history.take row.lastSequenceNumber) createInitialProjection = .ok (projectionFromRow row)

/-- How the tables stand to all events that the log of a run ever held: the snapshot has folded
the ones that were pruned, and the row has folded some of them. -/
structure Projected (runId : RunId) (history : List EventRow) (db : Database) : Prop where
  numbered : NumberedAfter 0 history
  started : ∃ first rest workflowType input, history = first :: rest ∧ first.event = .runStarted workflowType input
  decoded : ∀ stored ∈ history, Decoded stored.event
  pruned : (db.base runId).lastSequenceNumber ≤ history.length
  base : foldRunEvents (history.take (db.base runId).lastSequenceNumber) createInitialProjection = .ok (db.base runId)
  stored : db.storedEvents runId = history.drop (db.base runId).lastSequenceNumber
  snapshot : db.prunedUpTo runId = (db.base runId).lastSequenceNumber
  row : ∃ row, db.run? runId = some row ∧ row.Folded history ∧ row.lastSequenceNumber ≤ history.length ∧
    (db.base runId).lastSequenceNumber ≤ row.lastSequenceNumber

/-- What a call has loaded: the events after its start, as they were at some earlier time. -/
def Loaded (history : List EventRow) (db : Database) (runId : RunId) (start : RunProjection) (events : List EventRow) :
    Prop :=
  ∃ known loaded, known ≤ (db.base runId).lastSequenceNumber ∧ 1 ≤ loaded ∧ loaded ≤ history.length ∧
    events = (history.take loaded).drop (max known start.lastSequenceNumber)

theorem Projected.storedNumbered (projected : Projected runId history db) :
    NumberedAfter (db.base runId).lastSequenceNumber (db.storedEvents runId) := by
  have rest := projected.numbered.drop _ projected.pruned
  rwa [Nat.zero_add, ← projected.stored] at rest

theorem Projected.storedLength (projected : Projected runId history db) :
    (db.base runId).lastSequenceNumber + (db.storedEvents runId).length = history.length := by
  rw [projected.stored, List.length_drop]
  exact Nat.add_sub_cancel' projected.pruned

theorem Projected.current (projected : Projected runId history db) : db.currentSequence runId = history.length := by
  have current := currentSequence_numbered projected.storedNumbered
  rw [projected.storedLength, ← projected.snapshot] at current
  exact current

theorem Projected.nonempty (projected : Projected runId history db) : 1 ≤ history.length := by
  obtain ⟨first, rest, _, _, same, -⟩ := projected.started
  rw [same]
  exact Nat.succ_le_succ (Nat.zero_le _)

theorem Projected.unseen_base (projected : Projected runId history db) :
    db.unseen runId (db.base runId).lastSequenceNumber = db.storedEvents runId := by
  rw [db.unseen_eq projected.storedNumbered le_rfl, Nat.sub_self, List.drop_zero]

theorem Projected.unseen (projected : Projected runId history db) (fromSeq : Nat) :
    db.unseen runId fromSeq = history.drop (max (db.base runId).lastSequenceNumber fromSeq) := by
  have lower : (db.base runId).lastSequenceNumber ≤ max (db.base runId).lastSequenceNumber fromSeq := le_max_left _ _
  rw [db.unseen_max projected.storedNumbered, projected.stored, List.drop_drop, Nat.add_sub_cancel' lower]

/-- What a call loads now. -/
theorem Projected.loads (projected : Projected runId history db) (start : RunProjection) :
    Loaded history db runId start (db.unseen runId start.lastSequenceNumber) := by
  refine ⟨_, history.length, le_rfl, projected.nonempty, le_rfl, ?_⟩
  rw [projected.unseen, List.take_length]

/-- Where a fold starts, all earlier events are folded, except those of a new row. -/
theorem Projected.startFrom (projected : Projected runId history db) (from' : db.startFrom runId kind = some start) :
    (db.base runId).lastSequenceNumber ≤ start.lastSequenceNumber ∧ start.lastSequenceNumber ≤ history.length ∧
      start.Stored ∧ (start.lastSequenceNumber = 0 ∧
        (∃ before, start = { createInitialProjection with input := before }) ∨
        foldRunEvents (history.take start.lastSequenceNumber) createInitialProjection = .ok start) := by
  have prefixDecoded (count : Nat) : ∀ stored ∈ history.take count, Decoded stored.event :=
    fun stored member => projected.decoded stored (List.mem_of_mem_take member)
  obtain ⟨row, found, folded, behind, ahead⟩ := projected.row
  rw [Database.startFrom, found] at from'
  cases kind with
  | rebuild =>
    cases from'
    exact ⟨le_rfl, projected.pruned,
      foldRunEvents_stored (prefixDecoded _) createInitialProjection_stored projected.base, .inr projected.base⟩
  | refresh =>
    cases from'
    refine ⟨ahead, behind, ?_⟩
    rcases folded with ⟨zero, stored, created⟩ | ⟨-, folds⟩
    · refine ⟨?_, .inl ⟨zero, row.input, created⟩⟩
      change (projectionFromRow row).Stored
      rw [created]
      exact RunProjection.stored_iff.mpr ⟨stored, rfl⟩
    · exact ⟨foldRunEvents_stored (prefixDecoded _) createInitialProjection_stored folds, .inr folds⟩

/-- A fold of loaded events is the fold of the whole log up to where they end. -/
theorem Projected.folds (projected : Projected runId history db) (from' : db.startFrom runId kind = some start)
    {observed : RunProjection} (unmoved : start.lastSequenceNumber = observed.lastSequenceNumber)
    (loaded : Loaded history db runId observed events) (folds : foldRunEvents events start = .ok next) :
    next.lastSequenceNumber ≤ history.length ∧ (db.base runId).lastSequenceNumber ≤ next.lastSequenceNumber ∧
      next.lastSequenceNumber ≠ 0 ∧ next.Stored ∧
      foldRunEvents (history.take next.lastSequenceNumber) createInitialProjection = .ok next := by
  obtain ⟨lower, upper, stored, begins⟩ := projected.startFrom from'
  obtain ⟨known, upTo, below, positive, inside, rfl⟩ := loaded
  have place : max known observed.lastSequenceNumber = start.lastSequenceNumber := by
    rw [← unmoved]
    exact max_eq_right (le_trans below lower)
  rw [place] at folds
  have counted := foldRunEvents_counts folds
  rw [List.length_drop, List.length_take, Nat.min_eq_left inside] at counted
  have reached : next.lastSequenceNumber = max start.lastSequenceNumber upTo := by omega
  have nextStored : next.Stored := by
    refine foldRunEvents_stored (fun event member => ?_) stored folds
    exact projected.decoded event (List.mem_of_mem_take (List.mem_of_mem_drop member))
  refine ⟨by omega, by omega, by omega, nextStored, ?_⟩
  rw [reached]
  rcases begins with ⟨zero, before, created⟩ | begins
  · -- the row is new, and its first event sets its input
    rw [zero, List.drop_zero] at folds
    rw [zero, max_eq_right (Nat.zero_le upTo)]
    obtain ⟨first, rest, workflowType, input, whole, started⟩ := projected.started
    obtain ⟨count, rfl⟩ := Nat.exists_eq_add_of_le' positive
    rw [whole, List.take_succ_cons] at folds ⊢
    rw [created, foldRunEvents_created started] at folds
    exact folds
  · have parts : history.take (max start.lastSequenceNumber upTo) =
        history.take start.lastSequenceNumber ++ (history.take upTo).drop start.lastSequenceNumber := by
      by_cases further : start.lastSequenceNumber ≤ upTo
      · have first : history.take start.lastSequenceNumber = (history.take upTo).take start.lastSequenceNumber := by
          rw [List.take_take, Nat.min_eq_left further]
        rw [max_eq_right further, first, List.take_append_drop]
      · have nothing : (history.take upTo).drop start.lastSequenceNumber = [] := by
          refine List.drop_eq_nil_of_le ?_
          rw [List.length_take]
          omega
        rw [max_eq_left (Nat.le_of_not_le further), nothing, List.append_nil]
    rw [parts, foldRunEvents_append, begins]
    exact folds

/-- One history and its tables go on to others, and what was loaded stays usable. -/
structure GoesOnTo (runId : RunId) (history : List EventRow) (db : Database) (history' : List EventRow) (db' : Database) :
    Prop where
  projected : Projected runId history' db'
  loaded : ∀ start events, Loaded history db runId start events → Loaded history' db' runId start events

theorem GoesOnTo.refl (projected : Projected runId history db) : GoesOnTo runId history db history db :=
  ⟨projected, fun _ _ => id⟩

theorem GoesOnTo.trans {history' history'' : List EventRow} {db' db'' : Database}
    (first : GoesOnTo runId history db history' db') (second : GoesOnTo runId history' db' history'' db'') :
    GoesOnTo runId history db history'' db'' :=
  ⟨second.projected, fun start events loaded => second.loaded start events (first.loaded start events loaded)⟩

theorem Projected.appended (projected : Projected runId history db) (added : List WorkflowEvent)
    (decoded : ∀ event ∈ added, Decoded event) (now : Instant) :
    GoesOnTo runId history db (history ++ eventRows runId history.length added now) (db.appended runId added now) := by
  have longer : history.length ≤ (history ++ eventRows runId history.length added now).length := by
    rw [List.length_append]
    exact Nat.le_add_right _ _
  have base : (db.appended runId added now).base runId = db.base runId := rfl
  refine ⟨⟨?_, ?_, ?_, le_trans projected.pruned longer, ?_, ?_, projected.snapshot, ?_⟩, ?_⟩
  · refine projected.numbered.append ?_
    unfold NumberedAfter
    rw [Nat.zero_add, eventRows_sequence, eventRows_length]
  · obtain ⟨first, rest, workflowType, input, same, started⟩ := projected.started
    exact ⟨first, rest ++ eventRows runId history.length added now, workflowType, input, by rw [same]; rfl, started⟩
  · intro stored member
    rcases List.mem_append.mp member with before | new
    · exact projected.decoded stored before
    · exact decoded stored.event (eventRows_mem new).2.1
  · rw [base, List.take_append_of_le_length projected.pruned]
    exact projected.base
  · rw [base, Database.appended_storedEvents, if_pos rfl, projected.current, projected.stored,
      List.drop_append_of_le_length projected.pruned]
  · obtain ⟨row, found, folded, behind, ahead⟩ := projected.row
    refine ⟨row, found, ?_, le_trans behind longer, ahead⟩
    rcases folded with created | ⟨some', folds⟩
    · exact .inl created
    · refine .inr ⟨some', ?_⟩
      rwa [List.take_append_of_le_length behind]
  · rintro start events ⟨known, upTo, below, positive, inside, rfl⟩
    refine ⟨known, upTo, below, positive, le_trans inside longer, ?_⟩
    rw [List.take_append_of_le_length inside]

/-- The row is written with the fold of the log up to some event. -/
theorem Projected.written (projected : Projected runId history db) (inside : next.lastSequenceNumber ≤ history.length)
    (ahead : (db.base runId).lastSequenceNumber ≤ next.lastSequenceNumber) (some' : next.lastSequenceNumber ≠ 0)
    (folds : foldRunEvents (history.take next.lastSequenceNumber) createInitialProjection = .ok next) :
    GoesOnTo runId history db history (db.updateRun runId (·.withProjection next)) := by
  obtain ⟨row, found, -⟩ := projected.row
  refine ⟨{ projected with row := ⟨row.withProjection next, ?_, .inr ⟨some', folds⟩, inside, ahead⟩ },
    fun _ _ => id⟩
  rw [Database.updateRun_run? (·.withProjection next) fun _ => rfl, if_pos rfl, found]
  rfl

/-- A compaction folds what it prunes into the snapshot. It prunes nothing that the row has not
folded, since a closed row folds no more. -/
theorem Projected.compacted (projected : Projected runId history db) {row : RunRow} {projection : RunProjection}
    {kept prunedEventCount : Nat} (found : db.run? runId = some row) (closed : row.status ≠ .running)
    (folds : foldRunEvents ((db.storedEvents runId).take kept) (db.base runId) = .ok projection) :
    GoesOnTo runId history db history ((db.upsertSnapshot ⟨runId, projection.lastSequenceNumber, prunedEventCount,
      projection⟩).deleteEvents runId projection.lastSequenceNumber) := by
  obtain ⟨row', found', folded, behind, ahead⟩ := projected.row
  cases found.symm.trans found'
  have counted := foldRunEvents_counts folds
  have length := projected.storedLength
  rw [List.length_take] at counted
  have whole : foldRunEvents (history.take projection.lastSequenceNumber) createInitialProjection = .ok projection := by
    have parts : history.take projection.lastSequenceNumber =
        history.take (db.base runId).lastSequenceNumber ++ (db.storedEvents runId).take kept := by
      have cut : (db.storedEvents runId).take kept =
          (db.storedEvents runId).take (min kept (db.storedEvents runId).length) := by
        rw [← List.take_eq_take_min]
      rw [cut, counted, List.take_add, projected.stored]
    rw [parts, foldRunEvents_append, projected.base]
    exact folds
  have reached : projection.lastSequenceNumber ≤ row.lastSequenceNumber := by
    rcases folded with ⟨-, -, created⟩ | ⟨some', rowFolds⟩
    · exact absurd (congrArg RunProjection.state created) closed
    · by_contra beyond
      have further : row.lastSequenceNumber ≤ projection.lastSequenceNumber := Nat.le_of_not_le beyond
      obtain ⟨more, rfl'⟩ := Nat.exists_eq_add_of_le further
      rw [rfl', List.take_add, foldRunEvents_append, rowFolds] at whole
      have nothing := foldRunEvents_closed (show (projectionFromRow row).state ≠ .running from closed) whole
      rw [List.take_eq_nil_iff, List.drop_eq_nil_iff] at nothing
      omega
  have base : ((db.upsertSnapshot ⟨runId, projection.lastSequenceNumber, prunedEventCount,
      projection⟩).deleteEvents runId projection.lastSequenceNumber).base runId = projection := by
    change (db.upsertSnapshot _).base runId = projection
    rw [Database.upsertSnapshot_base, if_pos rfl]
  have run : ((db.upsertSnapshot ⟨runId, projection.lastSequenceNumber, prunedEventCount,
      projection⟩).deleteEvents runId projection.lastSequenceNumber).run? runId = db.run? runId := by
    unfold Database.upsertSnapshot
    split <;> rfl
  refine ⟨⟨projected.numbered, projected.started, projected.decoded, ?_, ?_, ?_, ?_, ?_⟩, ?_⟩
  · rw [base]
    exact le_trans reached behind
  · rw [base]
    exact whole
  · rw [base, Database.deleteEvents_storedEvents, if_pos rfl, Database.upsertSnapshot_storedEvents,
      projected.storedNumbered.filter _ (counted ▸ Nat.le_add_right _ _), projected.stored, List.drop_drop]
    congr 1
    omega
  · rw [base]
    unfold Database.prunedUpTo
    change (((db.upsertSnapshot _).snapshots.find? _).map _).getD 0 = _
    rw [Database.upsertSnapshot_find, if_pos rfl]
    rfl
  · exact ⟨row, run.trans found, folded, behind, by rwa [base]⟩
  · rintro start events ⟨known, upTo, below, positive, inside, rfl⟩
    refine ⟨known, upTo, ?_, positive, inside, rfl⟩
    rw [base]
    omega

end Invariant

section Transactions

variable {runId : RunId} {history : List EventRow} {db : Database} {kind : FoldKind} {start next : RunProjection}
  {events : List EventRow}

theorem foldTransactionOn_spec : Ensures (· = db) (foldTransactionOn runId kind start events) fun answer db' =>
    match answer with
    | none => db' = db
    | some next => ∃ start', db.startFrom runId kind = some start' ∧
        start'.lastSequenceNumber = start.lastSequenceNumber ∧ foldRunEvents events start' = .ok next ∧
        db' = db.updateRun runId (·.withProjection next.reread) := by
  refine .read ?_
  cases from' : db.startFrom runId kind with
  | none => exact .raise
  | some start' =>
    dsimp only
    split
    · exact .pure fun _ same => same
    · next unmoved =>
        cases folds : foldRunEvents events start' with
        | error error => exact .through (fun _ _ => False) .raise fun _ _ _ _ => False.elim
        | ok next =>
          refine .through (fun answer db' => db' = db ∧ answer = next) (.pure fun _ same => ⟨same, rfl⟩)
            fun answer => ?_
          refine .each ?_
          rintro _ ⟨rfl, rfl⟩
          refine .wrote (.pure ?_)
          rintro _ rfl
          exact ⟨start', rfl, not_not.mp unmoved, folds, rfl⟩

/-- A call whose fold meets an invalid event is refused. -/
theorem foldTransactionOn_refused {start' : RunProjection} {error : EngineError}
    (from' : db.startFrom runId kind = some start') (unmoved : start'.lastSequenceNumber = start.lastSequenceNumber)
    (invalid : foldRunEvents events start' = .error error) :
    Ensures (· = db) (foldTransactionOn runId kind start events) fun _ _ => False := by
  refine .read ?_
  rw [from']
  dsimp only
  rw [if_neg (not_not.mpr unmoved), invalid]
  exact .through (fun _ _ => False) .raise fun _ _ _ _ => False.elim

/-- What a run's row is after a call has folded its log. -/
def RefreshedTo (runId : RunId) (db : Database) (next : RunProjection) : Prop :=
  ∃ row, db.run? runId = some row ∧ projectionFromRow row = next ∧ row.lastSequenceNumber ≠ 0 ∧
    row.lastSequenceNumber ≤ db.currentSequence runId ∧
    foldRunEvents ((db.storedEvents runId).filter fun stored => stored.sequenceNumber ≤ row.lastSequenceNumber)
      (db.base runId) = .ok next

/-- The events up to a sequence number, of a log whose first events were folded into a snapshot. -/
theorem Projected.folds_stored (projected : Projected runId history db)
    (ahead : (db.base runId).lastSequenceNumber ≤ next.lastSequenceNumber)
    (folds : foldRunEvents (history.take next.lastSequenceNumber) createInitialProjection = .ok next) :
    foldRunEvents ((db.storedEvents runId).filter fun stored => stored.sequenceNumber ≤ next.lastSequenceNumber)
      (db.base runId) = .ok next := by
  have listed : (db.storedEvents runId).filter (fun stored => stored.sequenceNumber ≤ next.lastSequenceNumber) =
      (db.storedEvents runId).take (next.lastSequenceNumber - (db.base runId).lastSequenceNumber) :=
    projected.storedNumbered.filter_le _ ahead
  obtain ⟨more, same⟩ := Nat.exists_eq_add_of_le ahead
  rw [same, List.take_add, foldRunEvents_append, projected.base, ← projected.stored] at folds
  rw [listed, same, Nat.add_sub_cancel_left]
  exact folds

theorem Projected.refreshedTo (projected : Projected runId history db) (inside : next.lastSequenceNumber ≤ history.length)
    (ahead : (db.base runId).lastSequenceNumber ≤ next.lastSequenceNumber) (some' : next.lastSequenceNumber ≠ 0)
    (folds : foldRunEvents (history.take next.lastSequenceNumber) createInitialProjection = .ok next) :
    RefreshedTo runId (db.updateRun runId (·.withProjection next)) next := by
  obtain ⟨row, found, -⟩ := projected.row
  refine ⟨row.withProjection next, ?_, rfl, some', ?_, projected.folds_stored ahead folds⟩
  · rw [Database.updateRun_run? (·.withProjection next) fun _ => rfl, if_pos rfl, found]
    rfl
  · have current : (db.updateRun runId (·.withProjection next)).currentSequence runId = db.currentSequence runId := rfl
    rw [current, projected.current]
    exact inside

/-- A transaction of `foldInto` brings the row to the fold of a part of the log, or it changes nothing. -/
theorem Projected.foldTransaction (projected : Projected runId history db) (loaded : Loaded history db runId start events)
    (budget : Option Nat) :
    GoesOnTo runId history db history (withTransaction (foldTransactionOn runId kind start events) budget db).2 ∧
      match (withTransaction (foldTransactionOn runId kind start events) budget db).1 with
      | .ok (some next) =>
        RefreshedTo runId (withTransaction (foldTransactionOn runId kind start events) budget db).2 next
      | _ => (withTransaction (foldTransactionOn runId kind start events) budget db).2 = db := by
  rcases withTransaction_cases foldTransactionOn_spec budget db rfl with
    ⟨fault, failed⟩ | ⟨answer, db', done, kept⟩
  · rw [failed]
    exact ⟨.refl projected, rfl⟩
  · rw [done]
    cases answer with
    | none =>
      obtain rfl : db' = db := kept
      exact ⟨.refl projected, rfl⟩
    | some next =>
      obtain ⟨start', from', unmoved, folds, rfl⟩ := kept
      obtain ⟨inside, ahead, some', stored, whole⟩ := projected.folds from' unmoved loaded folds
      have same : next.reread = next := stored
      rw [same]
      exact ⟨projected.written inside ahead some' whole, projected.refreshedTo inside ahead some' whole⟩

/-- A refresh in the caller's transaction folds the log to its end. -/
theorem Projected.refreshProjection (projected : Projected runId history db) :
    Ensures (· = db) (refreshProjection runId) fun next db' => GoesOnTo runId history db history db' ∧
      RefreshedTo runId db' next ∧ next.lastSequenceNumber = db'.currentSequence runId := by
  refine refreshProjection_spec.mono (fun _ => id) ?_
  rintro next db' ⟨row, found, folds, rfl⟩
  have from' : db.startFrom runId .refresh = some (projectionFromRow row) := by
    rw [Database.startFrom, found]
    rfl
  obtain ⟨inside, ahead, some', stored, whole⟩ :=
    projected.folds from' rfl (projected.loads (projectionFromRow row)) folds
  refine ⟨projected.written inside ahead some' whole, projected.refreshedTo inside ahead some' whole, ?_⟩
  obtain ⟨lower, upper, -⟩ := projected.startFrom from'
  change (db.base runId).lastSequenceNumber ≤ row.lastSequenceNumber at lower
  change row.lastSequenceNumber ≤ history.length at upper
  have counted := foldRunEvents_counts folds
  have read := db.unseen_max projected.storedNumbered row.lastSequenceNumber
  rw [max_eq_right lower] at read
  have length := projected.storedLength
  have current : (db.updateRun runId (·.withProjection next)).currentSequence runId = history.length := projected.current
  rw [current, counted]
  change row.lastSequenceNumber + (db.unseen runId row.lastSequenceNumber).length = history.length
  rw [read, List.length_drop]
  omega

theorem Projected.appends (projected : Projected runId history db) {expectedSeq : Nat} {added : List WorkflowEvent}
    {now : Instant} (decoded : ∀ event ∈ added, Decoded event) : Ensures (· = db) (appendEvents runId expectedSeq added now) fun _ db' =>
      ∃ history', GoesOnTo runId history db history' db' := by
  refine appendEvents_spec.mono (fun _ => id) ?_
  rintro rows db' ⟨-, rfl, -⟩
  exact ⟨_, projected.appended added decoded now⟩

theorem Projected.appendsAndRefreshes (projected : Projected runId history db) {expectedSeq : Nat}
    {added : List WorkflowEvent} {now : Instant} (decoded : ∀ event ∈ added, Decoded event) :
    Ensures (· = db) (appendAndRefreshOn runId expectedSeq added now) fun next db' =>
      (∃ history', GoesOnTo runId history db history' db') ∧ RefreshedTo runId db' next ∧
        next.lastSequenceNumber = db'.currentSequence runId := by
  refine .then (projected.appends decoded).discard ?_
  rintro _ middle ⟨_, history', grown⟩
  refine grown.projected.refreshProjection.mono (fun _ => id) ?_
  rintro next db' ⟨written, refreshed, whole⟩
  exact ⟨⟨history', grown.trans written⟩, refreshed, whole⟩

/-- The effect of a compaction. -/
theorem compactRunOn_effect {tailEvents : Nat} : Ensures (· = db) (compactRunOn tailEvents runId) fun result db' =>
    db' = db ∧ result = ⟨false, 0⟩ ∧ (∀ row, db.run? runId = some row → row.status = .running) ∨
    ∃ row projection prunedEventCount, db.run? runId = some row ∧ row.status ≠ .running ∧
      foldRunEvents ((db.unseen runId (db.base runId).lastSequenceNumber).take
        ((db.unseen runId (db.base runId).lastSequenceNumber).length - tailEvents)) (db.base runId) = .ok projection ∧
      prunedEventCount = ((db.snapshots.find? fun snapshot => snapshot.runId == runId).map
        SnapshotRow.prunedEventCount).getD 0 + result.prunedEvents ∧
      result.prunedEvents = (db.unseen runId (db.base runId).lastSequenceNumber).length - tailEvents ∧
      result.compacted = true ∧ db' = (db.upsertSnapshot ⟨runId, projection.lastSequenceNumber, prunedEventCount,
        projection⟩).deleteEvents runId projection.lastSequenceNumber := by
  refine .read ?_
  split
  · next terminal =>
      cases found : db.run? runId with
      | none =>
        rw [found] at terminal
        cases terminal
      | some row =>
        rw [found] at terminal
        have closed : row.status ≠ .running := (isTerminalState_iff _).mp terminal
        refine .read (.read ?_)
        change Ensures _ (liftExcept (foldRunEvents ((db.unseen runId (db.base runId).lastSequenceNumber).take
          ((db.unseen runId (db.base runId).lastSequenceNumber).length - tailEvents)) (db.base runId)) >>= _) _
        cases folds : foldRunEvents ((db.unseen runId (db.base runId).lastSequenceNumber).take
          ((db.unseen runId (db.base runId).lastSequenceNumber).length - tailEvents)) (db.base runId) with
        | error error => exact .through (fun _ _ => False) .raise fun _ _ _ _ => False.elim
        | ok projection =>
          refine .through (fun answer db' => db' = db ∧ answer = projection) (.pure fun _ same => ⟨same, rfl⟩)
            fun answer => ?_
          refine .each ?_
          rintro store ⟨same, rfl⟩
          cases same
          refine .wrote (.wrote (.pure ?_))
          rintro _ rfl
          refine .inr ⟨row, _, _, rfl, closed, rfl, rfl, ?_, rfl, rfl⟩
          change ((db.unseen runId (db.base runId).lastSequenceNumber).take _).length = _
          rw [List.length_take]
          exact Nat.min_eq_left (Nat.sub_le _ _)
  · next open' =>
      refine .pure fun _ same => .inl ⟨same, rfl, fun row found => ?_⟩
      rw [found] at open'
      by_contra closed
      exact open' ((isTerminalState_iff _).mpr closed)

theorem Projected.compacts (projected : Projected runId history db) {tailEvents : Nat} :
    Ensures (· = db) (compactRunOn tailEvents runId) fun _ db' => GoesOnTo runId history db history db' := by
  refine compactRunOn_effect.mono (fun _ => id) ?_
  rintro result db' (⟨rfl, -⟩ | ⟨row, projection, prunedEventCount, found, closed, folds, -, -, -, rfl⟩)
  · exact .refl projected
  · rw [projected.unseen_base] at folds
    exact projected.compacted found closed folds

theorem Projected.elsewhere (projected : Projected runId history db) {db' : Database}
    (events : db'.storedEvents runId = db.storedEvents runId) (snapshots : (db'.snapshots.find? fun row => row.runId == runId) =
      db.snapshots.find? fun row => row.runId == runId)
    (row : (db'.run? runId).map projectionFromRow = (db.run? runId).map projectionFromRow) : GoesOnTo runId history db history db' := by
  have base : db'.base runId = db.base runId := by
    rw [Database.base, snapshots]
    rfl
  refine ⟨⟨projected.numbered, projected.started, projected.decoded, ?_, ?_, ?_, ?_, ?_⟩, ?_⟩
  · exact base ▸ projected.pruned
  · exact base ▸ projected.base
  · rw [base, events]
    exact projected.stored
  · rw [base, ← projected.snapshot, Database.prunedUpTo, snapshots]
    rfl
  · obtain ⟨old, found, folded, behind, ahead⟩ := projected.row
    rw [found] at row
    obtain ⟨new, found', same⟩ := Option.map_eq_some_iff.mp row
    have counted : new.lastSequenceNumber = old.lastSequenceNumber := congrArg RunProjection.lastSequenceNumber same
    have input : new.input = old.input := congrArg RunProjection.input same
    refine ⟨new, found', ?_, counted ▸ behind, by rw [base, counted]; exact ahead⟩
    unfold RunRow.Folded RunRow.AsCreated at folded ⊢
    rw [counted, same, input]
    exact folded
  · rintro start events ⟨known, upTo, below, rest⟩
    exact ⟨known, upTo, base ▸ below, rest⟩

end Transactions

section Runs

variable {runId : RunId} {world world' : FoldWorld}

/-- What holds of the tables and of all calls at any time. -/
def FoldWorld.Holds (runId : RunId) (world : FoldWorld) : Prop :=
  ∃ history, Projected runId history world.db ∧ ∀ caller kind start events,
    world.calls caller = .loaded kind start events → Loaded history world.db runId start events

/-- Another writer of the tables changes no call. -/
theorem FoldWorld.Holds.wrote (holds : world.Holds runId) {A : Type} {work : Tx A} {budget : Option Nat}
    (goesOn : ∀ history, Projected runId history world.db →
      Ensures (· = world.db) work fun _ db' => ∃ history', GoesOnTo runId history world.db history' db') :
    FoldWorld.Holds runId { world with db := (withTransaction work budget world.db).2 } := by
  obtain ⟨history, projected, loaded⟩ := holds
  rcases withTransaction_cases (goesOn history projected) budget world.db rfl with
    ⟨fault, failed⟩ | ⟨answer, db', done, history', grown⟩
  · rw [failed]
    exact ⟨history, projected, loaded⟩
  · rw [done]
    exact ⟨history', grown.projected, fun caller kind start events at' =>
      grown.loaded start events (loaded caller kind start events at')⟩

/-- A call that has not loaded anything is moved. -/
theorem FoldWorld.Holds.moved (holds : world.Holds runId) (caller : Nat) (phase : FoldPhase)
    (unloaded : ∀ kind start events, phase ≠ .loaded kind start events) :
    FoldWorld.Holds runId { world with calls := Function.update world.calls caller phase } := by
  obtain ⟨history, projected, loaded⟩ := holds
  refine ⟨history, projected, fun other kind start events at' => ?_⟩
  simp only [Function.update_apply] at at'
  split at at'
  · exact absurd at' (unloaded kind start events)
  · exact loaded other kind start events at'

theorem FoldWorld.Holds.advances (holds : world.Holds runId) (caller : Nat) (budget : Option Nat) :
    FoldWorld.Holds runId ⟨((world.calls caller).advance runId budget world.db).2,
      Function.update world.calls caller ((world.calls caller).advance runId budget world.db).1⟩ := by
  obtain ⟨history, projected, loaded⟩ := id holds
  cases phase : world.calls caller with
  | starting kind =>
    simp only [FoldPhase.advance]
    split
    · exact holds.moved caller _ fun _ _ _ same => nomatch same
    · exact holds.moved caller _ fun _ _ _ same => nomatch same
  | observed kind start =>
    refine ⟨history, projected, fun other kind' start' events' at' => ?_⟩
    simp only [FoldPhase.advance, Function.update_apply] at at'
    split at at'
    · cases at'
      exact projected.loads start
    · exact loaded other kind' start' events' at'
  | loaded kind start events =>
    obtain ⟨grown, -⟩ := projected.foldTransaction (loaded caller kind start events phase) budget
    simp only [FoldPhase.advance]
    generalize withTransaction (foldTransactionOn runId kind start events) budget world.db = outcome at grown
    obtain ⟨answer, db'⟩ := outcome
    have still : FoldWorld.Holds runId { world with db := db' } :=
      ⟨history, grown.projected, fun other kind' start' events' at' =>
        grown.loaded start' events' (loaded other kind' start' events' at')⟩
    cases answer with
    | error fault => exact still.moved caller _ fun _ _ _ same => nomatch same
    | ok answer => cases answer <;> exact still.moved caller _ fun _ _ _ same => nomatch same
  | returned answer => exact holds.moved caller _ fun _ _ _ same => nomatch same
  | rejected => exact holds.moved caller _ fun _ _ _ same => nomatch same

theorem FoldWorld.Holds.step (holds : world.Holds runId) (step : FoldStep runId world world') : world'.Holds runId := by
  cases step with
  | starts caller kind => exact holds.moved caller _ fun _ _ _ same => nomatch same
  | advances caller budget => exact holds.advances caller budget
  | fails caller => exact holds.moved caller _ fun _ _ _ same => nomatch same
  | appends expectedSeq events now budget decoded =>
    exact holds.wrote fun history projected => projected.appends decoded
  | appendsAndRefreshes expectedSeq events now budget decoded =>
    refine holds.wrote fun history projected => ?_
    exact (projected.appendsAndRefreshes decoded).mono (fun _ => id) fun _ _ ensured => ensured.1
  | compacts tailEvents budget =>
    refine holds.wrote fun history projected => ?_
    exact projected.compacts.mono (fun _ => id) fun _ _ grown => ⟨history, grown⟩
  | elsewhere db events snapshots row =>
    obtain ⟨history, projected, loaded⟩ := holds
    have grown := projected.elsewhere events snapshots row
    exact ⟨history, grown.projected, fun caller kind start events' at' =>
      grown.loaded start events' (loaded caller kind start events' at')⟩

theorem CreatedRun.projected {db : Database} (created : CreatedRun runId db) : ∃ history, Projected runId history db := by
  obtain ⟨workflowType, input, createdAt, stored, log⟩ := created.log
  obtain ⟨row, found, asCreated⟩ := created.row
  have base : db.base runId = createInitialProjection := by
    rw [Database.base, created.whole]
    rfl
  have zero : row.lastSequenceNumber = 0 := congrArg RunProjection.lastSequenceNumber asCreated.2
  refine ⟨[⟨runId, 1, .runStarted workflowType input, createdAt⟩], rfl, ⟨_, [], workflowType, input, rfl, rfl⟩,
    ?_, ?_, ?_, ?_, ?_, ⟨row, found, .inl ⟨zero, asCreated⟩, zero ▸ Nat.zero_le _, base ▸ Nat.zero_le _⟩⟩
  · intro event member
    rw [List.mem_singleton.mp member]
    exact stored
  · rw [base]
    exact Nat.zero_le _
  · rw [base]
    rfl
  · rw [base, log]
    rfl
  · rw [base, Database.prunedUpTo, created.whole]
    rfl

theorem FoldRun.holds (run : FoldRun runId world) : world.Holds runId := by
  induction run with
  | created db created =>
    obtain ⟨history, projected⟩ := created.projected
    exact ⟨history, projected, fun _ _ _ _ same => nomatch same⟩
  | step run step holds => exact holds.step step

/-- What the engine opens is a run as it is created. -/
theorem Opens.created {now : Instant} {db db' : Database} {row : RunRow} {input : JsValue} {reason : WakeReason}
    (opens : Opens now row input reason db db') (fresh : ∀ other ∈ db.runs, other.id < db.nextId)
    (numbered : row.id = db.nextId) (unlogged : db.storedEvents row.id = [])
    (whole : (db.snapshots.find? fun snapshot => snapshot.runId == row.id) = none)
    (asCreated : row.AsCreated) (decoded : input.stored = input) : CreatedRun row.id db' := by
  cases opens with
  | intro row' timeouts columns timed =>
    have id : row'.id = row.id := (congrArg RunRow.id columns : row'.untimed.id = row.untimed.id)
    refine ⟨⟨row', ?_, ?_⟩, ⟨row'.workflowType, input, now, decoded, ?_⟩, whole⟩
    · rw [Database.opened_run? fresh (id.trans numbered), if_pos id.symm]
    · have projection : projectionFromRow row' = projectionFromRow row :=
        (congrArg projectionFromRow columns : projectionFromRow row'.untimed = projectionFromRow row.untimed)
      have input : row'.input = row.input := congrArg RunProjection.input projection
      unfold RunRow.AsCreated
      rw [projection, input]
      exact asCreated
    · rw [Database.opened_storedEvents, unlogged, if_pos id.symm, id]
      rfl

/-- Whatever runs at the same time, the row of a run never runs ahead of its log, and once
anything was folded into it, it is the fold of exactly the events up to its sequence number. A
call that commits leaves the row so, and a call that is refused leaves the tables alone. -/
theorem projection_incremental (run : FoldRun runId world) :
    (∃ row, world.db.run? runId = some row ∧ row.lastSequenceNumber ≤ world.db.currentSequence runId ∧
      (row.lastSequenceNumber ≠ 0 → RefreshedTo runId world.db (projectionFromRow row))) ∧
    (∀ caller kind start events budget, world.calls caller = .loaded kind start events →
      match withTransaction (foldTransactionOn runId kind start events) budget world.db with
      | (.ok (some next), db) => RefreshedTo runId db next
      | (_, db) => db = world.db) ∧
    (∀ kind start start' events budget error, world.db.startFrom runId kind = some start' →
      start'.lastSequenceNumber = start.lastSequenceNumber → foldRunEvents events start' = .error error →
      ∃ fault, withTransaction (foldTransactionOn runId kind start events) budget world.db = (.error fault, world.db)) ∧
    ∀ expectedSeq added now budget, (∀ event ∈ added, Decoded event) →
      match withTransaction (appendAndRefreshOn runId expectedSeq added now) budget world.db with
      | (.ok next, db) => RefreshedTo runId db next ∧ next.lastSequenceNumber = db.currentSequence runId
      | (.error _, db) => db = world.db := by
  obtain ⟨history, projected, loaded⟩ := run.holds
  refine ⟨?_, ?_, ?_, ?_⟩
  · obtain ⟨row, found, folded, behind, ahead⟩ := projected.row
    refine ⟨row, found, projected.current ▸ behind, fun some' => ?_⟩
    rcases folded with ⟨zero, -⟩ | ⟨-, folds⟩
    · exact absurd zero some'
    · exact ⟨row, found, rfl, some', projected.current ▸ behind,
        projected.folds_stored (show _ ≤ (projectionFromRow row).lastSequenceNumber from ahead) folds⟩
  · intro caller kind start events budget at'
    obtain ⟨-, outcome⟩ := projected.foldTransaction (loaded caller kind start events at') budget
    generalize withTransaction (foldTransactionOn runId kind start events) budget world.db = result at outcome
    obtain ⟨answer, db'⟩ := result
    rcases answer with fault | _ | next <;> exact outcome
  · intro kind start start' events budget error from' unmoved invalid
    rcases withTransaction_cases (foldTransactionOn_refused from' unmoved invalid) budget world.db rfl with
      failed | ⟨answer, db', -, absurd'⟩
    · exact failed
    · exact absurd'.elim
  · intro expectedSeq added now budget decoded
    rcases withTransaction_cases (projected.appendsAndRefreshes decoded) budget world.db rfl with
      ⟨fault, failed⟩ | ⟨next, db', done, -, refreshed, whole⟩
    · rw [failed]
    · rw [done]
      exact ⟨refreshed, whole⟩

end Runs

/-- A run that was just started. -/
def startedRun : Database :=
  (EngineOp.startRun 0 "main" ⟨"order", .null, none, none, none⟩).run .epoch none emptyDatabase

/-- Two calls load the log, one before an append and one after it. -/
theorem racedCalls_run : ∃ world start events, FoldRun 0 world ∧ world.calls 0 = .loaded .rebuild (startedRun.base 0) startedRun.events ∧
    world.calls 1 = .loaded .refresh start events ∧ events.length = 2 := by
  have created : CreatedRun 0 startedRun := ⟨⟨_, rfl, rfl, rfl⟩, ⟨"order", .null, .epoch, rfl, rfl⟩, rfl⟩
  have first := (((FoldRun.created _ created).step (.starts 0 .rebuild)).step (.advances 0 none)).step
    (.advances 0 none)
  have appended := first.step (.appends 1 [.signalReceived "go" .null] .epoch none fun event listed => by
    obtain rfl := List.mem_singleton.mp listed
    trivial)
  have second := ((appended.step (.starts 1 .refresh)).step (.advances 1 none)).step (.advances 1 none)
  exact ⟨_, _, _, second, rfl, rfl, rfl⟩

theorem projection_incremental_started : ∃ db start events, events.length = 2 ∧ ∀ budget,
    (match withTransaction (foldTransactionOn 0 .rebuild (startedRun.base 0) startedRun.events) budget db with
      | (.ok (some next), db') => RefreshedTo 0 db' next
      | (_, db') => db' = db) ∧
    match withTransaction (foldTransactionOn 0 .refresh start events) budget db with
      | (.ok (some next), db') => RefreshedTo 0 db' next
      | (_, db') => db' = db := by
  obtain ⟨world, start, events, run, first, second, two⟩ := racedCalls_run
  exact ⟨world.db, start, events, two, fun budget => ⟨(projection_incremental run).2.1 0 .rebuild _ _ budget first,
    (projection_incremental run).2.1 1 .refresh start events budget second⟩⟩

end DurableExecution.Engine

import DurableExecution.Engine.Operations

/-
This file models the compaction of closed runs and the rebuilding of a run's row, and shows
that both keep the database coherent.
-/

namespace DurableExecution.Engine

open Workflow (JsValue WorkflowEvent Instant)
open Transaction

structure CompactionResult where
  compacted : Bool
  prunedEvents : Nat

section Operations

/-- `on conflict (run_id) do update`. -/
def Database.upsertSnapshot (db : Database) (snapshot : SnapshotRow) : Database :=
  if db.snapshots.any fun row => row.runId == snapshot.runId then
    { db with snapshots := db.snapshots.map fun row => if row.runId = snapshot.runId then snapshot else row }
  else { db with snapshots := db.snapshots ++ [snapshot] }

def Database.deleteEvents (db : Database) (runId : RunId) (lastSequenceNumber : Nat) : Database :=
  { db with events := db.events.filter fun stored =>
    !(stored.runId == runId && decide (stored.sequenceNumber ≤ lastSequenceNumber)) }

/-- The sequence number up to which a compaction pruned the log, 0 without one. -/
def Database.prunedUpTo (db : Database) (runId : RunId) : Nat :=
  ((db.snapshots.find? fun row => row.runId == runId).map SnapshotRow.lastSequenceNumber).getD 0

/-- The statements of `compactRun`, which prunes the history of a closed run. -/
def compactRunOn (tailEvents : Nat) (runId : RunId) : Tx CompactionResult := do
  let row ← select fun db => db.run? runId
  if (row.map fun run => isTerminalState run.status).getD false then
    let previous ← select fun db => db.snapshots.find? fun snapshot => snapshot.runId == runId
    let start := (previous.map SnapshotRow.projection).getD createInitialProjection
    let events ← readEvents runId start.lastSequenceNumber
    let pruned := events.take (events.length - tailEvents)
    let projection ← liftExcept (foldRunEvents pruned start)
    let prunedEventCount := (previous.map SnapshotRow.prunedEventCount).getD 0 + pruned.length
    write fun db => db.upsertSnapshot ⟨runId, projection.lastSequenceNumber, prunedEventCount, projection⟩
    write fun db => db.deleteEvents runId projection.lastSequenceNumber
    pure ⟨true, pruned.length⟩
  else pure ⟨false, 0⟩

/-- The statements of `rebuildProjection`, which folds the row of a run from its whole log. -/
def rebuildProjectionOn (runId : RunId) : Tx RunProjection := do
  match ← select fun db => db.run? runId with
  | none => raise (.missingRun runId)
  | some _ =>
    let start ← select fun db => db.base runId
    let events ← readEvents runId start.lastSequenceNumber
    let next ← liftExcept (foldRunEvents events start)
    write fun db => db.updateRun runId (·.withProjection next)
    pure next

end Operations

section Folding

variable {db : Database} {runId : RunId} {row : RunRow} {events : List EventRow} {base projection : RunProjection}

/-- The log of a run that goes on from a projection: nothing follows its closing event. -/
def EndsOnce (base : RunProjection) (events : List EventRow) : Prop :=
  base.state = .running ∧ (LeavesOpen events ∨ ClosesLast events) ∨ base.state ≠ .running ∧ events = []

/-- A part of a log that closes last leaves the run open, or is all of it. -/
theorem ClosesLast.split {first second : List EventRow} (closes : ClosesLast (first ++ second)) :
    LeavesOpen first ∧ ClosesLast second ∨ ClosesLast first ∧ second = [] := by
  obtain ⟨earlier, last, same, closing, open'⟩ := closes
  rcases List.eq_nil_or_concat second with rfl | ⟨rest, other, rfl⟩
  · rw [List.append_nil] at same
    exact .inr ⟨⟨earlier, last, same, closing, open'⟩, rfl⟩
  · rw [List.concat_eq_append, ← List.append_assoc] at same
    obtain ⟨before, last'⟩ := List.append_inj' same rfl
    rw [← before] at open'
    cases last'
    refine .inl ⟨fun stored member => open' stored (List.mem_append_left _ member), rest, last,
      List.concat_eq_append, closing, ?_⟩
    exact fun stored member => open' stored (List.mem_append_right _ member)

/-- The log of a closed run that goes on from a projection. -/
def Closed (base : RunProjection) (events : List EventRow) : Prop :=
  base.state ≠ .running ∧ events = [] ∨ base.state = .running ∧ ClosesLast events

/-- The first part of a closed log folds, and the rest is a closed log that goes on from there. -/
theorem Closed.split {first second : List EventRow} (closed : Closed base (first ++ second))
    (numbered : NumberedAfter base.lastSequenceNumber (first ++ second)) : ∃ middle, foldRunEvents first base = .ok middle ∧
      middle.lastSequenceNumber = base.lastSequenceNumber + first.length ∧ Closed middle second := by
  rcases closed with ⟨closed, empty⟩ | ⟨running, closes⟩
  · rw [List.append_eq_nil_iff] at empty
    rw [empty.1, empty.2]
    exact ⟨base, rfl, rfl, .inl ⟨closed, rfl⟩⟩
  · have parts := closes.split
    obtain ⟨middle, folds⟩ := foldRunEvents_succeeds running numbered.split.1 (parts.imp And.left And.left)
    obtain ⟨counted, outcome⟩ := foldRunEvents_ok running folds
    refine ⟨middle, folds, counted, ?_⟩
    rcases parts with ⟨open', closes'⟩ | ⟨closes', empty⟩
    · rcases outcome with ⟨running', -⟩ | ⟨-, closes''⟩
      · exact .inr ⟨running', closes'⟩
      · exact absurd open' closes''.notOpen
    · rcases outcome with ⟨-, open'⟩ | ⟨closed, -⟩
      · exact absurd open' closes'.notOpen
      · exact .inl ⟨closed, empty⟩

theorem currentSequence_numbered {seq : Nat} {rows : List EventRow} (numbered : NumberedAfter seq rows) :
    max ((rows.map EventRow.sequenceNumber).max?.getD 0) seq = seq + rows.length := by
  by_cases empty : rows = []
  · simp [empty]
  · rw [numbered.max empty]
    omega

theorem NumberedAfter.drop {seq : Nat} {rows : List EventRow} (numbered : NumberedAfter seq rows) (count : Nat)
    (inside : count ≤ rows.length) : NumberedAfter (seq + count) (rows.drop count) := by
  have parts := List.take_append_drop count rows
  rw [← parts] at numbered
  have rest := numbered.split.2
  rwa [List.length_take, Nat.min_eq_left inside] at rest

/-- The events up to a sequence number are the first ones. -/
theorem NumberedAfter.filter_le {seq : Nat} {rows : List EventRow} (numbered : NumberedAfter seq rows) (upTo : Nat)
    (lower : seq ≤ upTo) : rows.filter (fun stored => stored.sequenceNumber ≤ upTo) = rows.take (upTo - seq) := by
  induction rows generalizing seq with
  | nil => simp
  | cons first rest ih =>
    obtain ⟨placed, later⟩ := numbered.tail
    by_cases none' : seq = upTo
    · subst none'
      rw [Nat.sub_self, List.take_zero, List.filter_eq_nil_iff]
      intro stored member
      have above := (numbered.mem member).1
      simpa using above
    · have kept : upTo - seq = (upTo - (seq + 1)) + 1 := by omega
      rw [kept, List.take_succ_cons, List.filter_cons_of_pos (by simp; omega)]
      exact congrArg (first :: ·) (ih later (by omega))

/-- A fold counts the events that it folds. -/
theorem foldRunEvents_counts {events : List EventRow} {start next : RunProjection} (folded : foldRunEvents events start = .ok next) :
    next.lastSequenceNumber = start.lastSequenceNumber + events.length := by
  induction events generalizing start with
  | nil =>
    cases folded
    rfl
  | cons first rest ih =>
    simp only [foldRunEvents, List.foldlM_cons, bind, Except.bind] at folded
    split at folded
    · cases folded
    · next middle applied =>
        obtain ⟨following, counted, -⟩ := applyEventToProjection_ok applied
        rw [ih folded, counted, following, List.length_cons]
        omega

/-- The events after any sequence number, of a log that goes on from another. -/
theorem Database.unseen_max {seq : Nat} (db : Database) (numbered : NumberedAfter seq (db.storedEvents runId))
    (fromSeq : Nat) : db.unseen runId fromSeq = (db.storedEvents runId).drop (max seq fromSeq - seq) := by
  by_cases later : seq ≤ fromSeq
  · rw [db.unseen_eq numbered later, max_eq_right later]
  · have earlier : fromSeq ≤ seq := le_of_not_ge later
    rw [max_eq_left earlier, Nat.sub_self, List.drop_zero]
    have all : (db.storedEvents runId).filter (fun stored => fromSeq < stored.sequenceNumber) = db.storedEvents runId := by
      refine List.filter_eq_self.mpr fun stored member => ?_
      have above := (numbered.mem member).1
      simpa using lt_of_le_of_lt earlier above
    unfold Database.unseen
    rw [all]
    exact List.Pairwise.insertionSort_eq numbered.sorted

/-- In a coherent database every log ends once. -/
theorem Database.Coherent.endsOnce (coherent : db.Coherent none) (found : db.run? runId = some row) :
    EndsOnce (db.base runId) (db.storedEvents runId) := by
  have follows := coherent.follows runId row found
  by_cases running : row.status = .running
  · exact .inl ⟨(follows.whileOpen running).1, .inl (coherent.settled runId row found nofun running)⟩
  · rcases (follows.onceClosed running).2 with ⟨closed, empty⟩ | ⟨running', closes⟩
    · exact .inr ⟨closed, empty⟩
    · exact .inl ⟨running', .inr closes⟩

/-- In a coherent database the log of every run can be folded. -/
theorem Database.Coherent.log_folds (coherent : db.Coherent none) (found : db.run? runId = some row) :
    ∃ next, foldRunEvents (db.unseen runId (db.base runId).lastSequenceNumber) (db.base runId) = .ok next ∧
      (row.withProjection next).Follows (db.base runId) (db.storedEvents runId) ∧
      (next.state = .running → LeavesOpen (db.storedEvents runId)) := by
  have numbered := (coherent.follows runId row found).numbered
  have whole : db.unseen runId (db.base runId).lastSequenceNumber = db.storedEvents runId := by
    rw [db.unseen_eq numbered le_rfl, Nat.sub_self, List.drop_zero]
  rw [whole]
  rcases coherent.endsOnce found with ⟨running, ordered⟩ | ⟨closed, empty⟩
  · obtain ⟨next, folds⟩ := foldRunEvents_succeeds running numbered ordered
    obtain ⟨counted, outcome⟩ := foldRunEvents_ok running folds
    have seen : (db.base runId).lastSequenceNumber ≤ next.lastSequenceNumber ∧ next.lastSequenceNumber ≤
        (db.base runId).lastSequenceNumber + (db.storedEvents runId).length := by
      rw [counted]
      exact ⟨Nat.le_add_right _ _, le_rfl⟩
    refine ⟨next, folds, ?_⟩
    rcases outcome with ⟨running', open'⟩ | ⟨closed, closes⟩
    · exact ⟨⟨numbered, seen, fun _ => ⟨running, fun event member _ => open' event member⟩,
        fun closed => absurd running' closed⟩, fun _ => open'⟩
    · exact ⟨⟨numbered, seen, fun open' => absurd open' closed, fun _ => ⟨counted, .inr ⟨running, closes⟩⟩⟩,
        fun open' => absurd open' closed⟩
  · rw [empty] at numbered ⊢
    refine ⟨db.base runId, rfl, ⟨numbered, ⟨le_rfl, le_rfl⟩, fun open' => absurd open' closed, fun _ => ?_⟩,
      fun _ => .nil⟩
    exact ⟨rfl, .inl ⟨closed, rfl⟩⟩

end Folding

section Specs

variable {db : Database} {runId other : RunId} {row : RunRow} {snapshot : SnapshotRow}

/-- The snapshot of a run is the one that was written last. -/
theorem Database.upsertSnapshot_find : ((db.upsertSnapshot snapshot).snapshots.find? fun row => row.runId == other) =
    if other = snapshot.runId then some snapshot else db.snapshots.find? fun row => row.runId == other := by
  have mapped : (db.snapshots.map fun row => if row.runId = snapshot.runId then snapshot else row).find?
      (fun row => row.runId == other) = (db.snapshots.find? fun row => row.runId == other).map
        fun row => if row.runId = snapshot.runId then snapshot else row := by
    rw [List.find?_map]
    congr 2
    funext row
    simp only [Function.comp_apply]
    split
    · next same => rw [same]
    · rfl
  unfold Database.upsertSnapshot
  split
  · next present =>
      dsimp only
      rw [mapped]
      by_cases same : other = snapshot.runId
      · subst same
        obtain ⟨row, member, named⟩ := List.any_eq_true.mp present
        cases found : db.snapshots.find? fun row => row.runId == snapshot.runId with
        | none => exact absurd named (List.find?_eq_none.mp found row member)
        | some row' =>
          have named' : row'.runId = snapshot.runId := by simpa using List.find?_some found
          simp [named']
      · rw [if_neg same]
        cases found : db.snapshots.find? fun row => row.runId == other with
        | none => rfl
        | some row' =>
          have named' : row'.runId = other := by simpa using List.find?_some found
          simp [named', same]
  · next absent =>
      dsimp only
      rw [List.find?_append]
      by_cases same : other = snapshot.runId
      · subst same
        have none : db.snapshots.find? (fun row => row.runId == snapshot.runId) = none := by
          rw [List.find?_eq_none]
          intro row member named
          exact absent (List.any_eq_true.mpr ⟨row, member, named⟩)
        simp [none]
      · simp [Ne.symm same, if_neg same]

theorem Database.upsertSnapshot_base : (db.upsertSnapshot snapshot).base other =
    if other = snapshot.runId then snapshot.projection else db.base other := by
  unfold Database.base
  rw [Database.upsertSnapshot_find]
  split <;> rfl

@[simp] theorem Database.upsertSnapshot_events : (db.upsertSnapshot snapshot).events = db.events := by
  unfold Database.upsertSnapshot
  split <;> rfl

theorem Database.upsertSnapshot_storedEvents : (db.upsertSnapshot snapshot).storedEvents other = db.storedEvents other := by
  rw [Database.storedEvents, Database.upsertSnapshot_events]
  rfl

theorem Database.deleteEvents_storedEvents (lastSequenceNumber : Nat) :
    (db.deleteEvents runId lastSequenceNumber).storedEvents other =
      if other = runId then (db.storedEvents other).filter fun stored => lastSequenceNumber < stored.sequenceNumber
      else db.storedEvents other := by
  simp only [Database.deleteEvents, Database.storedEvents, List.filter_filter]
  split
  · next same =>
      subst same
      refine List.filter_congr fun stored _ => ?_
      cases own : stored.runId == other with
      | false => simp
      | true =>
        by_cases late : lastSequenceNumber < stored.sequenceNumber
        · simp [late, Nat.not_le.mpr late]
        · simp [late, Nat.not_lt.mp late]
  · next apart =>
      refine List.filter_congr fun stored _ => ?_
      cases own : stored.runId == other with
      | false => simp
      | true =>
        have other' : (stored.runId == runId) = false := by
          rw [beq_iff_eq.mp own]
          simpa using apart
        simp [other']

/-- A run's row is folded from its whole log. -/
theorem rebuildProjectionOn_spec (coherent : db.Coherent none) :
    Ensures (· = db) (rebuildProjectionOn runId) fun _ db' => db'.Coherent none := by
  refine .read ?_
  cases found : db.run? runId with
  | none => exact .raise
  | some row =>
    obtain ⟨next, folds, follows⟩ := coherent.log_folds found
    refine .read (.read ?_)
    change Ensures _ (liftExcept (foldRunEvents (db.unseen runId _) _) >>= _) _
    rw [folds]
    refine .through (fun answer db' => db' = db ∧ answer = next) (.pure fun _ same => ⟨same, rfl⟩) fun answer => ?_
    refine .each ?_
    rintro _ ⟨rfl, rfl⟩
    refine .wrote (.pure ?_)
    rintro _ rfl
    simpa using coherent.reprojected found follows

/-- The history of a closed run goes on from a projection of its first events. -/
theorem Database.Coherent.compacted {first second : List EventRow} {middle : RunProjection} {prunedEventCount : Nat}
    (coherent : db.Coherent none) (found : db.run? runId = some row) (closed : row.status ≠ .running)
    (parts : db.storedEvents runId = first ++ second)
    (counted : middle.lastSequenceNumber = (db.base runId).lastSequenceNumber + first.length) (rest : Closed middle second) :
    ((db.upsertSnapshot ⟨runId, middle.lastSequenceNumber, prunedEventCount, middle⟩).deleteEvents runId
      middle.lastSequenceNumber).Coherent none := by
  have run (other : RunId) : ((db.upsertSnapshot ⟨runId, middle.lastSequenceNumber, prunedEventCount,
      middle⟩).deleteEvents runId middle.lastSequenceNumber).run? other = db.run? other := by
    unfold Database.upsertSnapshot
    split <;> rfl
  have runs : ((db.upsertSnapshot ⟨runId, middle.lastSequenceNumber, prunedEventCount,
      middle⟩).deleteEvents runId middle.lastSequenceNumber).runs = db.runs := by
    unfold Database.upsertSnapshot
    split <;> rfl
  have events : (db.upsertSnapshot ⟨runId, middle.lastSequenceNumber, prunedEventCount, middle⟩).events =
      db.events := Database.upsertSnapshot_events
  have stored (other : RunId) : (db.upsertSnapshot ⟨runId, middle.lastSequenceNumber, prunedEventCount,
      middle⟩).storedEvents other = db.storedEvents other := Database.upsertSnapshot_storedEvents
  have base (other : RunId) : ((db.upsertSnapshot ⟨runId, middle.lastSequenceNumber, prunedEventCount,
      middle⟩).deleteEvents runId middle.lastSequenceNumber).base other =
        if other = runId then middle else db.base other := Database.upsertSnapshot_base
  have follows := coherent.follows runId row found
  have numbered := follows.numbered
  rw [parts] at numbered
  have kept : (db.storedEvents runId).filter (fun stored => middle.lastSequenceNumber < stored.sequenceNumber) =
      second := by
    rw [follows.numbered.filter _ (counted ▸ Nat.le_add_right _ _), counted, Nat.add_sub_cancel_left, parts,
      List.drop_left]
  constructor
  · rw [runs]
    exact coherent.distinct
  · intro other member
    have fresh := coherent.fresh other (runs ▸ member)
    unfold Database.upsertSnapshot
    split <;> exact fresh
  · rw [runs]
    exact coherent.parents
  · intro event member
    rw [run]
    have listed := (List.mem_filter.mp member).1
    rw [events] at listed
    exact coherent.owned event listed
  · intro snapshot member
    rw [run]
    have listed : snapshot ∈ (db.upsertSnapshot ⟨runId, middle.lastSequenceNumber, prunedEventCount,
        middle⟩).snapshots := member
    have cases : snapshot ∈ db.snapshots ∨ snapshot = ⟨runId, middle.lastSequenceNumber, prunedEventCount, middle⟩ := by
      unfold Database.upsertSnapshot at listed
      split at listed
      · obtain ⟨old, before, same⟩ := List.mem_map.mp listed
        split at same
        · exact .inr same.symm
        · exact .inl (same ▸ before)
      · simpa using listed
    rcases cases with before | rfl
    · exact coherent.snapshots snapshot before
    · exact ⟨by rw [found]; rfl, rfl⟩
  · intro other row' found'
    rw [run] at found'
    rw [base, Database.deleteEvents_storedEvents, stored]
    split
    · next same =>
        subst same
        cases found.symm.trans found'
        rw [kept]
        have once := (follows.onceClosed closed).1
        rw [parts, List.length_append] at once
        refine ⟨counted ▸ numbered.split.2, ⟨by omega, by omega⟩, fun open' => absurd open' closed, fun _ => ?_⟩
        exact ⟨by omega, rest⟩
    · exact coherent.follows other row' found'
  · intro other row' found' apart open'
    rw [run] at found'
    rw [Database.deleteEvents_storedEvents, stored]
    split
    · next same =>
        subst same
        cases found.symm.trans found'
        exact absurd open' closed
    · exact coherent.settled other row' found' apart open'

/-- What a compaction prunes can be folded, so that it succeeds on every closed run. -/
theorem compactRun_folds (coherent : db.Coherent none) (found : db.run? runId = some row)
    (closed : row.status ≠ .running) (kept : Nat) : ∃ middle,
      foldRunEvents ((db.unseen runId (db.base runId).lastSequenceNumber).take kept) (db.base runId) = .ok middle ∧
      ((db.upsertSnapshot ⟨runId, middle.lastSequenceNumber,
        ((db.snapshots.find? fun snapshot => snapshot.runId == runId).map SnapshotRow.prunedEventCount).getD 0 +
          ((db.unseen runId (db.base runId).lastSequenceNumber).take kept).length, middle⟩).deleteEvents runId
        middle.lastSequenceNumber).Coherent none := by
  have follows := coherent.follows runId row found
  have whole : db.unseen runId (db.base runId).lastSequenceNumber = db.storedEvents runId := by
    rw [db.unseen_eq follows.numbered le_rfl, Nat.sub_self, List.drop_zero]
  have parts := (List.take_append_drop kept (db.storedEvents runId)).symm
  have whole' : Closed (db.base runId) ((db.storedEvents runId).take kept ++ (db.storedEvents runId).drop kept) := by
    rw [← parts]
    exact (follows.onceClosed closed).2
  obtain ⟨middle, folds, counted, rest⟩ := whole'.split (parts ▸ follows.numbered)
  rw [whole]
  exact ⟨middle, folds, coherent.compacted found closed parts counted rest⟩

theorem compactRunOn_spec (tailEvents : Nat) (coherent : db.Coherent none) :
    Ensures (· = db) (compactRunOn tailEvents runId) fun _ db' => db'.Coherent none := by
  refine .read ?_
  split
  · next terminal =>
      cases found : db.run? runId with
      | none =>
        rw [found] at terminal
        cases terminal
      | some row =>
        rw [found] at terminal
        have closed : row.status ≠ .running := (isTerminalState_iff _).mp terminal
        refine .read (.read ?_)
        obtain ⟨middle, folds, coherent'⟩ := compactRun_folds coherent found closed
          ((db.unseen runId (db.base runId).lastSequenceNumber).length - tailEvents)
        change Ensures _ (liftExcept (foldRunEvents ((db.unseen runId (db.base runId).lastSequenceNumber).take
          ((db.unseen runId (db.base runId).lastSequenceNumber).length - tailEvents)) (db.base runId)) >>= _) _
        rw [folds]
        refine .through (fun answer db' => db' = db ∧ answer = middle) (.pure fun _ same => ⟨same, rfl⟩) fun answer => ?_
        refine .each ?_
        rintro _ ⟨rfl, rfl⟩
        refine .wrote (.wrote (.pure ?_))
        rintro _ rfl
        exact coherent'
  · exact .pure fun _ same => same ▸ coherent

end Specs

end DurableExecution.Engine

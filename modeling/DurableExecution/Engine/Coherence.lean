import DurableExecution.Engine.Tables

/-
This file says what keeps the log of a run, its row and its snapshot together: the events
are numbered without gaps, nothing follows a closing event, and the row has folded every
closing event it knows of.
-/

namespace DurableExecution.Engine

open Workflow (JsValue WorkflowEvent Instant)
open Transaction

section Folding

variable {projection next : RunProjection} {events : List EventRow}

/-- None of these events closes the run. -/
def LeavesOpen (events : List EventRow) : Prop := ∀ stored ∈ events, stored.event.isClosing = false

/-- The last of these events closes the run, and no earlier one does. -/
def ClosesLast (events : List EventRow) : Prop :=
  ∃ earlier last, events = earlier ++ [last] ∧ last.event.isClosing = true ∧ LeavesOpen earlier

/-- These events are numbered without gaps after a sequence number. -/
def NumberedAfter (seq : Nat) (events : List EventRow) : Prop :=
  events.map EventRow.sequenceNumber = List.range' (seq + 1) events.length

theorem NumberedAfter.append {seq : Nat} {more : List EventRow} (numbered : NumberedAfter seq events)
    (followed : NumberedAfter (seq + events.length) more) : NumberedAfter seq (events ++ more) := by
  unfold NumberedAfter at *
  rw [List.map_append, numbered, followed, List.length_append, ← List.range'_append_1]
  congr 2
  omega

theorem NumberedAfter.split {seq : Nat} {more : List EventRow} (numbered : NumberedAfter seq (events ++ more)) :
    NumberedAfter seq events ∧ NumberedAfter (seq + events.length) more := by
  unfold NumberedAfter at *
  rw [List.map_append, List.length_append, ← List.range'_append_1] at numbered
  obtain ⟨first, second⟩ := List.append_inj numbered (by simp)
  exact ⟨first, by rw [second]; congr 1; omega⟩

theorem NumberedAfter.mem {seq : Nat} {stored : EventRow} (numbered : NumberedAfter seq events)
    (member : stored ∈ events) : seq < stored.sequenceNumber ∧ stored.sequenceNumber ≤ seq + events.length := by
  have listed : stored.sequenceNumber ∈ events.map EventRow.sequenceNumber := List.mem_map_of_mem member
  rw [numbered, List.mem_range'_1] at listed
  omega

theorem NumberedAfter.tail {seq : Nat} {first : EventRow} (numbered : NumberedAfter seq (first :: events)) :
    first.sequenceNumber = seq + 1 ∧ NumberedAfter (seq + 1) events := by
  unfold NumberedAfter at *
  simpa only [List.map_cons, List.length_cons, List.range'_succ, List.cons.injEq] using numbered

theorem ClosesLast.notOpen (closes : ClosesLast events) : ¬ LeavesOpen events := by
  obtain ⟨earlier, last, rfl, closing, _⟩ := closes
  intro open'
  have quiet := open' last (by simp)
  rw [quiet] at closing
  cases closing

theorem LeavesOpen.nil : LeavesOpen [] := fun _ member => (List.not_mem_nil member).elim

theorem LeavesOpen.append {more : List EventRow} (first : LeavesOpen events) (second : LeavesOpen more) : LeavesOpen (events ++ more) := by
  intro stored member
  rcases List.mem_append.mp member with before | after
  · exact first stored before
  · exact second stored after

/-- A closed projection accepts nothing more. -/
theorem foldRunEvents_closed (closed : projection.state ≠ .running)
    (folded : foldRunEvents events projection = .ok next) : events = [] := by
  cases events with
  | nil => rfl
  | cons first rest =>
    simp only [foldRunEvents, List.foldlM_cons, bind, Except.bind] at folded
    split at folded
    · cases folded
    · next middle applied => exact absurd (applyEventToProjection_ok applied).2.2.1 closed

/-- What a successful fold of an open run's events says about them. -/
theorem foldRunEvents_ok (running : projection.state = .running) (folded : foldRunEvents events projection = .ok next) :
    next.lastSequenceNumber = projection.lastSequenceNumber + events.length ∧
      (next.state = .running ∧ LeavesOpen events ∨ next.state ≠ .running ∧ ClosesLast events) := by
  induction events generalizing projection with
  | nil =>
    cases folded
    exact ⟨by simp, .inl ⟨running, .nil⟩⟩
  | cons first rest ih =>
    simp only [foldRunEvents, List.foldlM_cons, bind, Except.bind] at folded
    split at folded
    · cases folded
    · next middle applied =>
        obtain ⟨following, counted, -, state⟩ := applyEventToProjection_ok applied
        have closing := terminalStateFor_isClosing first.event
        cases target : terminalStateFor first.event with
        | some reached =>
          rw [target] at state closing
          have closed : middle.state ≠ .running := by
            rw [state]
            exact (isTerminalState_iff _).mp (terminalStateFor_terminal _ _ target)
          have empty := foldRunEvents_closed closed folded
          subst empty
          cases folded
          refine ⟨by simp [counted, following], .inr ⟨closed, [], first, rfl, closing.symm, .nil⟩⟩
        | none =>
          rw [target] at state closing
          obtain ⟨lasts, outcome⟩ := ih state folded
          refine ⟨by rw [lasts, counted, following, List.length_cons]; omega, ?_⟩
          have quiet : LeavesOpen [first] := by
            intro stored member
            rw [List.mem_singleton.mp member]
            exact closing.symm
          rcases outcome with ⟨stays, rest'⟩ | ⟨ends, earlier, last, rfl, closes, rest'⟩
          · exact .inl ⟨stays, quiet.append rest'⟩
          · exact .inr ⟨ends, first :: earlier, last, rfl, closes, quiet.append rest'⟩

/-- Numbered events of which only the last may close the run can be folded. -/
theorem foldRunEvents_succeeds (running : projection.state = .running) (numbered : NumberedAfter projection.lastSequenceNumber events)
    (ordered : LeavesOpen events ∨ ClosesLast events) : ∃ next, foldRunEvents events projection = .ok next := by
  induction events generalizing projection with
  | nil => exact ⟨projection, rfl⟩
  | cons first rest ih =>
    obtain ⟨following, later⟩ := numbered.tail
    obtain ⟨middle, applied⟩ := applyEventToProjection_open following running
    obtain ⟨-, counted, -, state⟩ := applyEventToProjection_ok applied
    have closing := terminalStateFor_isClosing first.event
    rw [← following, ← counted] at later
    have step : foldRunEvents (first :: rest) projection = foldRunEvents rest middle := by
      simp only [foldRunEvents, List.foldlM_cons, applied, bind, Except.bind]
    rw [step]
    have goesOn : first.event.isClosing = false → middle.state = .running := by
      intro quiet
      rw [quiet, Option.isSome_eq_false_iff, Option.isNone_iff_eq_none] at closing
      rw [state, closing]
      rfl
    rcases ordered with open' | ⟨earlier, last, split', closes, before⟩
    · refine ih (goesOn (open' first List.mem_cons_self)) later (.inl fun stored member => ?_)
      exact open' stored (List.mem_cons_of_mem _ member)
    · cases earlier with
      | nil =>
        cases split'
        exact ⟨middle, rfl⟩
      | cons head remaining =>
        cases split'
        refine ih (goesOn (before first List.mem_cons_self)) later (.inr ⟨remaining, last, rfl, closes, ?_⟩)
        exact fun stored member => before stored (List.mem_cons_of_mem _ member)

end Folding

/-- The projection that the stored events of a run go on from. -/
def Database.base (db : Database) (runId : RunId) : RunProjection :=
  ((db.snapshots.find? fun row => row.runId == runId).map SnapshotRow.projection).getD createInitialProjection

/-- How the row of a run stands to its stored events: they are numbered, an open row has
folded no closing event, and a closed row has folded all events, of which the last closes. -/
structure RunRow.Follows (row : RunRow) (base : RunProjection) (stored : List EventRow) : Prop where
  numbered : NumberedAfter base.lastSequenceNumber stored
  seen : base.lastSequenceNumber ≤ row.lastSequenceNumber ∧
    row.lastSequenceNumber ≤ base.lastSequenceNumber + stored.length
  whileOpen : row.status = .running → base.state = .running ∧
    ∀ event ∈ stored, event.sequenceNumber ≤ row.lastSequenceNumber → event.event.isClosing = false
  onceClosed : row.status ≠ .running →
    row.lastSequenceNumber = base.lastSequenceNumber + stored.length ∧
      (base.state ≠ .running ∧ stored = [] ∨ base.state = .running ∧ ClosesLast stored)

/-- The database holds together, up to one run whose row may lag behind its log. -/
structure Database.Coherent (stale : Option RunId) (db : Database) : Prop where
  distinct : (db.runs.map RunRow.id).Nodup
  fresh : ∀ row ∈ db.runs, row.id < db.nextId
  parents : ∀ row ∈ db.runs, ∀ parentRunId, row.parentRunId = some parentRunId → parentRunId < row.id
  owned : ∀ stored ∈ db.events, (db.run? stored.runId).isSome
  snapshots : ∀ snapshot ∈ db.snapshots, (db.run? snapshot.runId).isSome ∧
    snapshot.lastSequenceNumber = snapshot.projection.lastSequenceNumber
  follows : ∀ runId row, db.run? runId = some row → row.Follows (db.base runId) (db.storedEvents runId)
  settled : ∀ runId row, db.run? runId = some row → some runId ≠ stale → row.status = .running →
    LeavesOpen (db.storedEvents runId)

section Numbering

variable {events : List EventRow} {seq : Nat}

theorem NumberedAfter.max (numbered : NumberedAfter seq events) (some' : events ≠ []) :
    (events.map EventRow.sequenceNumber).max?.getD 0 = seq + events.length := by
  have positive : 0 < events.length := List.length_pos_iff.mpr some'
  have largest : (events.map EventRow.sequenceNumber).max? = some (seq + events.length) := by
    rw [List.max?_eq_some_iff, numbered]
    simp only [List.mem_range'_1]
    exact ⟨by omega, fun number listed => by omega⟩
  rw [largest, Option.getD_some]

theorem NumberedAfter.sorted (numbered : NumberedAfter seq events) :
    events.Pairwise fun one two => one.sequenceNumber ≤ two.sequenceNumber := by
  have increasing : (events.map EventRow.sequenceNumber).Pairwise (· ≤ ·) := by
    rw [numbered]
    exact (List.pairwise_lt_range' _).imp le_of_lt
  exact List.pairwise_map.mp increasing

/-- The events after a sequence number are those that follow in the list. -/
theorem NumberedAfter.filter (numbered : NumberedAfter seq events) (fromSeq : Nat) (lower : seq ≤ fromSeq) :
    events.filter (fun row => fromSeq < row.sequenceNumber) = events.drop (fromSeq - seq) := by
  induction events generalizing seq with
  | nil => simp
  | cons first rest ih =>
    obtain ⟨placed, later⟩ := numbered.tail
    by_cases dropped : seq = fromSeq
    · subst dropped
      rw [Nat.sub_self, List.drop_zero, List.filter_eq_self]
      intro row member
      simpa using (numbered.mem member).1
    · have skipped : fromSeq - seq = (fromSeq - (seq + 1)) + 1 := by omega
      rw [skipped, List.drop_succ_cons, List.filter_cons_of_neg (by simp; omega)]
      exact ih later (by omega)

/-- What `readEvents` reads. -/
def Database.unseen (db : Database) (runId : RunId) (fromSeq : Nat) : List EventRow :=
  ((db.storedEvents runId).filter fun row => fromSeq < row.sequenceNumber).insertionSort
    fun one two => one.sequenceNumber ≤ two.sequenceNumber

theorem Database.unseen_eq {db : Database} {runId : RunId} {fromSeq : Nat}
    (numbered : NumberedAfter seq (db.storedEvents runId)) (lower : seq ≤ fromSeq) :
    db.unseen runId fromSeq = (db.storedEvents runId).drop (fromSeq - seq) := by
  unfold Database.unseen
  rw [numbered.filter fromSeq lower]
  exact List.Pairwise.insertionSort_eq (numbered.sorted.sublist (List.drop_sublist _ _))

end Numbering

section Preservation

variable {db : Database} {stale : Option RunId} {runId : RunId} {row : RunRow} {events : List WorkflowEvent}
  {now : Instant}

theorem Database.Coherent.base_sequence (coherent : db.Coherent stale) : (db.base runId).lastSequenceNumber =
      ((db.snapshots.find? fun row => row.runId == runId).map SnapshotRow.lastSequenceNumber).getD 0 := by
  unfold Database.base
  cases found : db.snapshots.find? fun row => row.runId == runId with
  | none => rfl
  | some snapshot => exact (coherent.snapshots snapshot (List.mem_of_find?_eq_some found)).2.symm

theorem Database.Coherent.currentSequence_eq (coherent : db.Coherent stale) (found : db.run? runId = some row) :
    db.currentSequence runId = (db.base runId).lastSequenceNumber + (db.storedEvents runId).length := by
  have numbered := (coherent.follows runId row found).numbered
  unfold Database.currentSequence
  rw [← coherent.base_sequence]
  by_cases empty : db.storedEvents runId = []
  · simp [empty]
  · rw [numbered.max empty]
    omega

/-- Changes to other tables keep the logs coherent. -/
theorem Database.Coherent.congr {db' : Database} (coherent : db.Coherent stale) (runs : db'.runs = db.runs)
    (events : db'.events = db.events) (snapshots : db'.snapshots = db.snapshots) (ids : db.nextId ≤ db'.nextId) : db'.Coherent stale := by
  have run (other : RunId) : db'.run? other = db.run? other := by rw [Database.run?, runs]; rfl
  have stored (other : RunId) : db'.storedEvents other = db.storedEvents other := by
    rw [Database.storedEvents, events]; rfl
  have base (other : RunId) : db'.base other = db.base other := by rw [Database.base, snapshots]; rfl
  constructor
  · rw [runs]
    exact coherent.distinct
  · rw [runs]
    exact fun row member => lt_of_lt_of_le (coherent.fresh row member) ids
  · rw [runs]
    exact coherent.parents
  · rw [events]
    simpa only [run] using coherent.owned
  · rw [snapshots]
    simpa only [run] using coherent.snapshots
  · intro other row found
    rw [base, stored]
    exact coherent.follows other row (run other ▸ found)
  · intro other row found
    rw [stored]
    exact coherent.settled other row (run other ▸ found)

theorem Database.Coherent.addTask (coherent : db.Coherent stale) (task : Nat → TaskRow) : (db.addTask task).Coherent stale :=
  coherent.congr rfl rfl rfl (Nat.le_succ _)

/-- Events may be appended to the log of an open run; a closing one leaves its row behind. -/
theorem Database.Coherent.appended {stale' : Option RunId} (coherent : db.Coherent stale)
    (found : db.run? runId = some row) (running : row.status = .running) (widens : stale = stale' ∨ stale = none)
    (quiet : stale' = some runId ∨ ∀ event ∈ events, event.isClosing = false) : (db.appended runId events now).Coherent stale' := by
  have follows := coherent.follows runId row found
  have current := coherent.currentSequence_eq found
  have numbered : NumberedAfter (db.currentSequence runId)
      (eventRows runId (db.currentSequence runId) events now) := by
    unfold NumberedAfter
    rw [eventRows_sequence, eventRows_length]
  refine ⟨coherent.distinct, coherent.fresh, coherent.parents, ?_, coherent.snapshots, ?_, ?_⟩
  · intro stored member
    rcases List.mem_append.mp member with before | added
    · exact coherent.owned stored before
    · rw [(eventRows_mem added).1]
      exact Option.isSome_iff_exists.mpr ⟨row, found⟩
  · intro other row' found'
    rw [Database.appended_storedEvents]
    change row'.Follows (db.base other) _
    split
    · next same =>
        subst same
        cases found.symm.trans found'
        refine ⟨follows.numbered.append (current ▸ numbered), ?_, ?_, fun closed => absurd running closed⟩
        · rw [List.length_append]
          have seen := follows.seen
          omega
        · refine fun _ => ⟨(follows.whileOpen running).1, fun event member early => ?_⟩
          rcases List.mem_append.mp member with before | added
          · exact (follows.whileOpen running).2 event before early
          · have late := (eventRows_mem added).2.2
            have seen := follows.seen
            omega
    · next apart =>
        rw [List.append_nil]
        exact coherent.follows other row' found'
  · intro other row' found' kept open'
    rw [Database.appended_storedEvents]
    split
    · next same =>
        subst same
        have quiet' : ∀ event ∈ events, event.isClosing = false := by
          rcases quiet with lagging | quiet
          · exact absurd lagging.symm kept
          · exact quiet
        have before : LeavesOpen (db.storedEvents other) := by
          refine coherent.settled other row' found' ?_ open'
          rcases widens with same | none
          · rwa [same]
          · rw [none]
            exact Option.some_ne_none _
        exact before.append fun stored added => quiet' _ (eventRows_mem added).2.1
    · rw [List.append_nil]
      refine coherent.settled other row' found' ?_ open'
      rcases widens with same | none
      · rwa [same]
      · rw [none]
        exact Option.some_ne_none _

/-- The row of a run is written again, as its log has it. -/
theorem Database.Coherent.reprojected {next : RunProjection} (coherent : db.Coherent stale)
    (found : db.run? runId = some row)
    (folded : (row.withProjection next).Follows (db.base runId) (db.storedEvents runId) ∧
      (next.state = .running → LeavesOpen (db.storedEvents runId))) :
    (db.updateRun runId fun row => row.withProjection next).Coherent (if stale = some runId then none else stale) := by
  have run (other : RunId) : (db.updateRun runId fun row => row.withProjection next).run? other =
      if other = runId then (db.run? other).map (·.withProjection next) else db.run? other :=
    Database.updateRun_run? _ fun _ => rfl
  constructor
  · have ids : ((db.updateRun runId fun row => row.withProjection next).runs.map RunRow.id) =
        db.runs.map RunRow.id := by
      simp only [Database.updateRun, List.map_map]
      refine List.map_congr_left fun row _ => ?_
      simp only [Function.comp_apply]
      split <;> rfl
    rw [ids]
    exact coherent.distinct
  · intro changed member
    obtain ⟨old, listed, rfl⟩ := List.mem_map.mp member
    split <;> exact coherent.fresh old listed
  · intro changed member parent named
    obtain ⟨old, listed, rfl⟩ := List.mem_map.mp member
    split at named <;> split <;> exact coherent.parents old listed parent named
  · intro stored member
    rw [run]
    have owned := coherent.owned stored member
    split <;> simpa using owned
  · intro snapshot member
    rw [run]
    have kept := coherent.snapshots snapshot member
    split <;> simpa using kept
  · intro other row' found'
    rw [run] at found'
    rw [Database.updateRun_storedEvents]
    change row'.Follows (db.base other) _
    split at found'
    · next same =>
        subst same
        rw [found] at found'
        cases found'
        exact folded.1
    · exact coherent.follows other row' found'
  · intro other row' found' kept open'
    rw [run] at found'
    rw [Database.updateRun_storedEvents]
    split at found'
    · next same =>
        subst same
        rw [found] at found'
        cases found'
        exact folded.2 open'
    · next apart =>
        refine coherent.settled other row' found' ?_ open'
        split at kept
        · next lagging =>
            rw [lagging]
            simpa using apart
        · exact kept

/-- The row of a run catches up with its log when the fold of what it has not seen succeeds. -/
theorem Database.Coherent.folded {next : RunProjection} (coherent : db.Coherent stale)
    (found : db.run? runId = some row)
    (folds : foldRunEvents (db.unseen runId row.lastSequenceNumber) (projectionFromRow row) = .ok next) :
    (db.updateRun runId fun row => row.withProjection next).Coherent (if stale = some runId then none else stale) := by
  have follows := coherent.follows runId row found
  have unseen := db.unseen_eq follows.numbered follows.seen.1
  have split' := List.take_append_drop (row.lastSequenceNumber - (db.base runId).lastSequenceNumber)
    (db.storedEvents runId)
  generalize seenPart : (db.storedEvents runId).take
    (row.lastSequenceNumber - (db.base runId).lastSequenceNumber) = old at split'
  rw [← unseen] at split'
  have folded : (row.withProjection next).Follows (db.base runId) (db.storedEvents runId) ∧
      (next.state = .running → LeavesOpen (db.storedEvents runId)) := by
    by_cases running : row.status = .running
    · have open' : (projectionFromRow row).state = .running := running
      obtain ⟨counted, outcome⟩ := foldRunEvents_ok open' folds
      have length : next.lastSequenceNumber = (db.base runId).lastSequenceNumber + (db.storedEvents runId).length := by
        rw [counted, unseen, List.length_drop]
        change row.lastSequenceNumber + _ = _
        have seen := follows.seen
        omega
      have before : LeavesOpen old := by
        intro stored member
        rw [← seenPart] at member
        refine (follows.whileOpen running).2 stored (List.mem_of_mem_take member) ?_
        have early : NumberedAfter (db.base runId).lastSequenceNumber old :=
          NumberedAfter.split (split' ▸ follows.numbered) |>.1
        have placed := early.mem (seenPart ▸ member)
        rw [← seenPart, List.length_take] at placed
        have seen := follows.seen
        omega
      rcases outcome with ⟨stays, open'⟩ | ⟨ends, earlier, last, exact', closes, open'⟩
      · have all : LeavesOpen (db.storedEvents runId) := split' ▸ before.append open'
        refine ⟨⟨follows.numbered, ?_, ?_, fun closed => absurd stays closed⟩, fun _ => all⟩
        · change _ ≤ next.lastSequenceNumber ∧ next.lastSequenceNumber ≤ _
          omega
        · exact fun _ => ⟨(follows.whileOpen running).1, fun event member _ => all event member⟩
      · refine ⟨⟨follows.numbered, ?_, fun open'' => absurd open'' ends, fun _ => ⟨length, .inr ?_⟩⟩,
          fun open'' => absurd open'' ends⟩
        · change _ ≤ next.lastSequenceNumber ∧ next.lastSequenceNumber ≤ _
          omega
        · refine ⟨(follows.whileOpen running).1, old ++ earlier, last, ?_, closes, before.append open'⟩
          rw [← split', exact', List.append_assoc]
    · have closed : (projectionFromRow row).state ≠ .running := running
      have nothing := foldRunEvents_closed closed folds
      rw [nothing] at folds
      cases folds
      exact ⟨follows, fun open' => absurd open' running⟩
  exact coherent.reprojected found folded

/-- A run whose log is open does not lag behind it. -/
theorem Database.Coherent.settle (coherent : db.Coherent (some runId)) (open' : LeavesOpen (db.storedEvents runId)) : db.Coherent none := by
  refine { coherent with settled := fun other row found _ running => ?_ }
  by_cases same : other = runId
  · rw [same]
    exact open'
  · exact coherent.settled other row found (by simpa using same) running

end Preservation

end DurableExecution.Engine

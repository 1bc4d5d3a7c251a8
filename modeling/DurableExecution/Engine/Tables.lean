import DurableExecution.Engine.EventStore

/-
This file says what each kind of change leaves of the tables, for the lookups that the
engine makes.
-/

namespace DurableExecution.Engine

open Workflow (JsValue WorkflowEvent Instant)
open Transaction

section Lookups

variable {db : Database} {runId other : RunId} {row : RunRow}

theorem Database.run?_id (found : db.run? runId = some row) : row.id = runId := by
  have matching := List.find?_some found
  simpa using matching

theorem Database.run?_mem (found : db.run? runId = some row) : row ∈ db.runs := List.mem_of_find?_eq_some found

theorem Database.mem_run? (distinct : (db.runs.map RunRow.id).Nodup) (member : row ∈ db.runs) : db.run? row.id = some row := by
  unfold Database.run?
  generalize db.runs = runs at distinct member
  induction runs with
  | nil => cases member
  | cons first rest ih =>
    simp only [List.map_cons, List.nodup_cons, List.mem_map, not_exists, not_and] at distinct
    rcases List.mem_cons.mp member with rfl | later
    · simp
    · have apart : first.id ≠ row.id := fun same => distinct.1 row later same.symm
      simpa [List.find?_cons, apart] using ih distinct.2 later

theorem Database.run?_isSome : (db.run? runId).isSome ↔ ∃ row ∈ db.runs, row.id = runId := by
  simp [Database.run?, List.find?_isSome]

theorem Database.run?_none : db.run? runId = none ↔ ∀ row ∈ db.runs, row.id ≠ runId := by
  simp [Database.run?]

/-- A column that keeps its rows' ids can be rewritten without losing a run. -/
theorem Database.updateRun_run? (change : RunRow → RunRow) (keeps : ∀ row, (change row).id = row.id) :
    (db.updateRun runId change).run? other =
      if other = runId then (db.run? other).map change else db.run? other := by
  simp only [Database.updateRun, Database.run?]
  generalize db.runs = runs
  induction runs with
  | nil => simp
  | cons first rest ih =>
    simp only [List.map_cons, List.find?_cons]
    by_cases updated : first.id = runId
    · rw [if_pos updated, keeps]
      by_cases sought : first.id = other
      · have same : other = runId := sought.symm.trans updated
        simp [sought, same]
      · simp only [beq_eq_false_iff_ne.mpr sought, ih]
    · rw [if_neg updated]
      by_cases sought : first.id = other
      · have apart : other ≠ runId := fun same => updated (sought.trans same)
        simp [sought, apart]
      · simp only [beq_eq_false_iff_ne.mpr sought, ih]

end Lookups

section Appending

variable {db : Database} {runId other : RunId} {events : List WorkflowEvent} {now : Instant}

/-- The database after events were appended to a run's log. -/
def Database.appended (db : Database) (runId : RunId) (events : List WorkflowEvent) (now : Instant) : Database :=
  { db with events := db.events ++ eventRows runId (db.currentSequence runId) events now }

theorem eventRows_length (seq : Nat) : (eventRows runId seq events now).length = events.length := by
  simp [eventRows]

theorem eventRows_event (seq : Nat) : (eventRows runId seq events now).map EventRow.event = events := by
  simp [eventRows, Function.comp_def]

theorem eventRows_sequence (seq : Nat) :
    (eventRows runId seq events now).map EventRow.sequenceNumber = List.range' (seq + 1) events.length := by
  simp [eventRows, Function.comp_def, List.zipIdx_map_snd]

theorem eventRows_mem {seq : Nat} {stored : EventRow} (member : stored ∈ eventRows runId seq events now) :
    stored.runId = runId ∧ stored.event ∈ events ∧ seq < stored.sequenceNumber := by
  simp only [eventRows, List.mem_map] at member
  obtain ⟨entry, listed, rfl⟩ := member
  have placed := List.mem_zipIdx listed
  refine ⟨rfl, List.fst_mem_of_mem_zipIdx listed, ?_⟩
  change seq < entry.2
  omega

@[simp] theorem eventRows_nil (seq : Nat) : eventRows runId seq [] now = [] := rfl

@[simp] theorem Database.appended_nil : db.appended runId [] now = db := by simp [Database.appended]

@[simp] theorem Database.appended_run? : (db.appended runId events now).run? other = db.run? other := rfl

@[simp] theorem Database.addTask_run? (task : Nat → TaskRow) : (db.addTask task).run? other = db.run? other := rfl

@[simp] theorem Database.addTask_storedEvents (task : Nat → TaskRow) :
    (db.addTask task).storedEvents other = db.storedEvents other := rfl

@[simp] theorem Database.addTask_log (task : Nat → TaskRow) : (db.addTask task).log other = db.log other := rfl

@[simp] theorem Database.updateRun_storedEvents (change : RunRow → RunRow) :
    (db.updateRun runId change).storedEvents other = db.storedEvents other := rfl

@[simp] theorem Database.updateRun_log (change : RunRow → RunRow) :
    (db.updateRun runId change).log other = db.log other := rfl

theorem Database.storedEvents_mem {stored : EventRow} (member : stored ∈ db.storedEvents runId) :
    stored ∈ db.events ∧ stored.runId = runId := by
  simpa [Database.storedEvents] using member

theorem Database.appended_storedEvents : (db.appended runId events now).storedEvents other =
    db.storedEvents other ++ if other = runId then eventRows runId (db.currentSequence runId) events now else [] := by
  simp only [Database.storedEvents, Database.appended, List.filter_append]
  congr 1
  split
  · next same =>
      subst same
      exact List.filter_eq_self.mpr fun stored member => by simpa using (eventRows_mem member).1
  · next apart =>
      refine List.filter_eq_nil_iff.mpr fun stored member => ?_
      simpa [(eventRows_mem member).1] using Ne.symm apart

theorem Database.appended_log : (db.appended runId events now).log other =
    db.log other ++ if other = runId then events else [] := by
  simp only [Database.log, Database.appended_storedEvents, List.map_append]
  split <;> simp [eventRows_event]

end Appending

section Statements

variable {db : Database} {runId : RunId} {events : List WorkflowEvent} {now : Instant}

/-- An accepted append found the sequence number it expected. -/
theorem appendEvents_spec {expectedSeq : Nat} : Ensures (· = db) (appendEvents runId expectedSeq events now)
    fun rows db' => db.currentSequence runId = expectedSeq ∧ db' = db.appended runId events now ∧
      rows.length = events.length ∧ (events ≠ [] → (db.run? runId).isSome) := by
  unfold appendEvents readCurrentSequence
  refine .through (fun current db' => db' = db ∧ current = db.currentSequence runId) (.select ?_) ?_
  · rintro store rfl
    exact ⟨rfl, rfl⟩
  · intro current
    split
    · exact .raise
    · next accepted =>
        have following : current = expectedSeq := not_not.mp accepted
        split
        · next empty =>
            refine .pure ?_
            rintro store ⟨rfl, rfl⟩
            rw [List.isEmpty_iff] at empty
            subst empty
            exact ⟨following, by simp, rfl, fun none => (none rfl).elim⟩
        · refine .through (fun _ db' => db.currentSequence runId = expectedSeq ∧
            db' = db.appended runId events now ∧ (events ≠ [] → (db.run? runId).isSome)) ?_ ?_
          · refine .statement ?_
            rintro store answer store' ⟨rfl, rfl⟩ inserted
            split at inserted
            · next checked =>
                cases inserted
                refine ⟨following, by simp only [Database.appended, following], fun some => ?_⟩
                obtain ⟨event, rest, rfl⟩ := List.exists_cons_of_ne_nil some
                simp only [List.all_eq_true, Bool.and_eq_true] at checked
                have first := checked ⟨runId, expectedSeq + 1, event, now⟩ (by simp [eventRows])
                exact first.1
            · cases inserted
          · intro _
            refine .pure ?_
            rintro store ⟨expected, rfl, exists'⟩
            exact ⟨expected, rfl, eventRows_length _, exists'⟩

/-- Appending to what the log holds now. -/
theorem appendNext_spec : Ensures (· = db) (appendNext runId events now)
    fun _ db' => db' = db.appended runId events now ∧ (events ≠ [] → (db.run? runId).isSome) := by
  unfold appendNext
  refine .keeps (.select fun store same => same) fun current => ?_
  exact appendEvents_spec.mono (fun _ same => same) fun _ _ ⟨_, same, _, exists'⟩ => ⟨same, exists'⟩

end Statements

end DurableExecution.Engine

import DurableExecution.Engine.HistoryCompactor

/-
This file models appends to the log of one run whose statements interleave, with
compactions in between, and shows when the log is linearizable.
-/

namespace DurableExecution.Engine

open Workflow (WorkflowEvent Instant)

/-- An append as its caller asks for it. -/
structure Append where
  expectedSeq : Nat
  events : List WorkflowEvent

def appendedEvents (appends : List Append) : List WorkflowEvent := appends.flatMap Append.events

/-- A transaction that appends. `rows` are inserted and not committed, and `checked` is the
append whose sequence check passed and whose insert is still to come. -/
structure AppendSession where
  rows : List EventRow
  appends : List Append
  checked : Option Append

def idleSession : AppendSession := ⟨[], [], none⟩

/-- The committed database, the open transactions and the snapshot that a compaction is
about to write. A compaction holds the run's row lock, so there is one at a time. -/
structure AppendWorld where
  db : Database
  sessions : Nat → AppendSession
  compaction : Option SnapshotRow

section Statements

/-- A statement sees the committed rows and those of its own transaction. -/
def AppendWorld.view (world : AppendWorld) (client : Nat) : Database :=
  { world.db with events := world.db.events ++ (world.sessions client).rows }

def AppendWorld.withSession (world : AppendWorld) (client : Nat) (session : AppendSession) : AppendWorld :=
  { world with sessions := Function.update world.sessions client session }

/-- The first statement of `appendEventsOnClient`. A stale append raises and an empty one
returns, and neither writes anything. -/
def AppendWorld.check (world : AppendWorld) (runId : RunId) (client : Nat) (append : Append) : AppendWorld :=
  if (world.view client).currentSequence runId ≠ append.expectedSeq then world
  else if append.events.isEmpty then world
  else world.withSession client { world.sessions client with checked := some append }

/-- No committed row and no row of an open transaction has the key of this one. An insert
waits for the open transactions and fails on a committed row. -/
def AppendWorld.Free (world : AppendWorld) (row : EventRow) : Prop :=
  (∀ other ∈ world.db.events, ¬ (other.runId = row.runId ∧ other.sequenceNumber = row.sequenceNumber)) ∧
  ∀ client, ∀ other ∈ (world.sessions client).rows,
    ¬ (other.runId = row.runId ∧ other.sequenceNumber = row.sequenceNumber)

/-- The insert of an append. -/
def AppendSession.insert (session : AppendSession) (runId : RunId) (append : Append) (now : Instant) :
    AppendSession where
  rows := session.rows ++ eventRows runId append.expectedSeq append.events now
  appends := session.appends ++ [append]
  checked := none

def AppendWorld.commit (world : AppendWorld) (client : Nat) : AppendWorld :=
  { world with db := world.view client }.withSession client idleSession

/-- One statement on the log of a run. The appends that a step lists are those whose
transaction it commits, and every insert `meets` a condition. A unique violation and every
other failure take their whole transaction back. -/
inductive AppendStep (runId : RunId) (meets : AppendWorld → Append → Prop) (world : AppendWorld) :
    List Append → AppendWorld → Prop where
  | checks (client : Nat) (append : Append) (next : (world.sessions client).checked = none) :
      AppendStep runId meets world [] (world.check runId client append)
  | inserts (client : Nat) (append : Append) (now : Instant) (passed : (world.sessions client).checked = some append)
      (free : ∀ row ∈ eventRows runId append.expectedSeq append.events now, world.Free row)
      (met : meets world append) :
      AppendStep runId meets world [] (world.withSession client ((world.sessions client).insert runId append now))
  | aborts (client : Nat) : AppendStep runId meets world [] (world.withSession client idleSession)
  | commits (client : Nat) (done : (world.sessions client).checked = none) :
      AppendStep runId meets world (world.sessions client).appends (world.commit client)
  | plans (tailEvents : Nat) (row : RunRow) (projection : RunProjection) (unlocked : world.compaction = none)
      (found : world.db.run? runId = some row) (closed : isTerminalState row.status = true)
      (folds : foldRunEvents ((world.db.unseen runId (world.db.base runId).lastSequenceNumber).take
        ((world.db.unseen runId (world.db.base runId).lastSequenceNumber).length - tailEvents))
        (world.db.base runId) = .ok projection) (prunedEventCount : Nat) :
      AppendStep runId meets world []
        { world with compaction := some ⟨runId, projection.lastSequenceNumber, prunedEventCount, projection⟩ }
  | abandons : AppendStep runId meets world [] { world with compaction := none }
  | prunes (snapshot : SnapshotRow) (planned : world.compaction = some snapshot) :
      AppendStep runId meets world [] { world with
        db := (world.db.upsertSnapshot snapshot).deleteEvents runId snapshot.lastSequenceNumber
        compaction := none }
  | elsewhere (db : Database) (events : db.storedEvents runId = world.db.storedEvents runId)
      (snapshots : (db.snapshots.find? fun row => row.runId == runId) =
        world.db.snapshots.find? fun row => row.runId == runId) :
      AppendStep runId meets world [] { world with db := db }

/-- A run of such statements from an empty log, with the appends that were committed so far. -/
inductive AppendRun (runId : RunId) (meets : AppendWorld → Append → Prop) : List Append → AppendWorld → Prop where
  | empty (db : Database) (events : db.storedEvents runId = [])
      (snapshots : (db.snapshots.find? fun row => row.runId == runId) = none) :
      AppendRun runId meets [] ⟨db, fun _ => idleSession, none⟩
  | step {accepted more : List Append} {world world' : AppendWorld} (run : AppendRun runId meets accepted world)
      (step : AppendStep runId meets world more world') : AppendRun runId meets (accepted ++ more) world'

/-- No compaction has pruned what comes after the sequence number that the append expects. -/
def Unpruned (runId : RunId) (world : AppendWorld) (append : Append) : Prop :=
  world.db.prunedUpTo runId ≤ append.expectedSeq

end Statements

section Placing

/-- Each append comes directly after the sequence number that it expects. -/
def PlacedFrom : Nat → List Append → Prop
  | _, [] => True
  | seq, append :: rest =>
    append.expectedSeq = seq ∧ append.events ≠ [] ∧ PlacedFrom (seq + append.events.length) rest

theorem appendedEvents_append (first second : List Append) :
    appendedEvents (first ++ second) = appendedEvents first ++ appendedEvents second := List.flatMap_append

theorem PlacedFrom.append {seq : Nat} {first second : List Append} (placed : PlacedFrom seq first)
    (after : PlacedFrom (seq + (appendedEvents first).length) second) : PlacedFrom seq (first ++ second) := by
  induction first generalizing seq with
  | nil => exact after
  | cons head rest ih =>
    obtain ⟨expected, some', later⟩ := placed
    refine ⟨expected, some', ih later ?_⟩
    simpa only [appendedEvents, List.flatMap_cons, List.length_append, Nat.add_assoc] using after

theorem PlacedFrom.mem {seq : Nat} {appends : List Append} {append : Append} (placed : PlacedFrom seq appends)
    (member : append ∈ appends) : seq ≤ append.expectedSeq := by
  induction appends generalizing seq with
  | nil => cases member
  | cons head rest ih =>
    obtain ⟨expected, -, later⟩ := placed
    rcases List.mem_cons.mp member with rfl | member
    · exact expected.ge
    · exact le_trans (Nat.le_add_right _ _) (ih later member)

/-- Two appends that were placed expected different sequence numbers. -/
theorem PlacedFrom.once {seq : Nat} {appends : List Append} (placed : PlacedFrom seq appends) :
    appends.Pairwise fun one two => one.expectedSeq ≠ two.expectedSeq := by
  induction appends generalizing seq with
  | nil => exact .nil
  | cons head rest ih =>
    obtain ⟨expected, some', later⟩ := placed
    refine .cons (fun other member => ?_) (ih later)
    have after := later.mem member
    have positive := List.length_pos_iff.mpr some'
    omega

/-- Where an append was placed, the events before it end. -/
theorem PlacedFrom.split {seq : Nat} {before after : List Append} {append : Append} (placed : PlacedFrom seq (before ++ append :: after)) :
    append.expectedSeq = seq + (appendedEvents before).length := by
  induction before generalizing seq with
  | nil => exact placed.1
  | cons head rest ih =>
    have later := ih placed.2.2
    simpa only [appendedEvents, List.flatMap_cons, List.length_append, Nat.add_assoc] using later

end Placing

section Invariant

/-- A transaction goes on where the committed log ends, unless it has written nothing: then
its next append may have been overtaken. -/
structure AppendSession.Fits (runId : RunId) (length : Nat) (session : AppendSession) : Prop where
  owned : ∀ row ∈ session.rows, row.runId = runId
  numbered : NumberedAfter length session.rows
  content : session.rows.map EventRow.event = appendedEvents session.appends
  placed : PlacedFrom length session.appends
  checked : ∀ append, session.checked = some append → append.events ≠ [] ∧
    append.expectedSeq ≤ length + session.rows.length ∧
    (session.rows ≠ [] → append.expectedSeq = length + session.rows.length)

/-- The log is what the accepted appends added, up to what was pruned. -/
structure AppendWorld.Holds (runId : RunId) (accepted : List Append) (world : AppendWorld) : Prop where
  pruned : world.db.prunedUpTo runId ≤ (appendedEvents accepted).length
  numbered : NumberedAfter (world.db.prunedUpTo runId) (world.db.storedEvents runId)
  content : (world.db.storedEvents runId).map EventRow.event =
    (appendedEvents accepted).drop (world.db.prunedUpTo runId)
  placed : PlacedFrom 0 accepted
  base : (world.db.base runId).lastSequenceNumber = world.db.prunedUpTo runId
  sessions : ∀ client, (world.sessions client).Fits runId (appendedEvents accepted).length
  alone : ∀ one two, (world.sessions one).rows ≠ [] → (world.sessions two).rows ≠ [] → one = two
  planned : ∀ snapshot, world.compaction = some snapshot → snapshot.runId = runId ∧
    snapshot.projection.lastSequenceNumber = snapshot.lastSequenceNumber ∧
    world.db.prunedUpTo runId ≤ snapshot.lastSequenceNumber ∧
    snapshot.lastSequenceNumber ≤ (appendedEvents accepted).length

variable {runId : RunId} {accepted : List Append} {world : AppendWorld} {session : AppendSession} {count : Nat}

theorem idleSession_fits : idleSession.Fits runId count where
  owned _ absent := (List.not_mem_nil absent).elim
  numbered := rfl
  content := rfl
  placed := trivial
  checked _ unchecked := nomatch unchecked

theorem AppendSession.Fits.empty (fits : session.Fits runId count) (unwritten : session.rows = []) : session.appends = [] := by
  have nothing := fits.content
  rw [unwritten] at nothing
  have placed := fits.placed
  cases listed : session.appends with
  | nil => rfl
  | cons append rest =>
    rw [listed] at nothing placed
    have none' : append.events ++ appendedEvents rest = [] := nothing.symm
    exact absurd (List.append_eq_nil_iff.mp none').1 placed.2.1

theorem AppendSession.Fits.length (fits : session.Fits runId count) : (appendedEvents session.appends).length = session.rows.length := by
  rw [← fits.content, List.length_map]

theorem AppendWorld.Holds.stored_length (holds : world.Holds runId accepted) :
    world.db.prunedUpTo runId + (world.db.storedEvents runId).length = (appendedEvents accepted).length := by
  have counted := congrArg List.length holds.content
  rw [List.length_map, List.length_drop] at counted
  have pruned := holds.pruned
  omega

/-- The rows that a transaction sees. -/
theorem AppendWorld.Holds.view_stored (holds : world.Holds runId accepted) (client : Nat) :
    (world.view client).storedEvents runId = world.db.storedEvents runId ++ (world.sessions client).rows := by
  simp only [AppendWorld.view, Database.storedEvents, List.filter_append]
  congr 1
  exact List.filter_eq_self.mpr fun row member => by simpa using (holds.sessions client).owned row member

theorem AppendWorld.Holds.view_numbered (holds : world.Holds runId accepted) (client : Nat) :
    NumberedAfter (world.db.prunedUpTo runId) ((world.view client).storedEvents runId) := by
  rw [holds.view_stored client]
  refine holds.numbered.append ?_
  rw [holds.stored_length]
  exact (holds.sessions client).numbered

/-- The current sequence number, as a transaction reads it. -/
theorem AppendWorld.Holds.view_current (holds : world.Holds runId accepted) (client : Nat) : (world.view client).currentSequence runId =
      (appendedEvents accepted).length + (world.sessions client).rows.length := by
  have current := currentSequence_numbered (holds.view_numbered client)
  rw [holds.view_stored client, List.length_append, ← Nat.add_assoc, holds.stored_length] at current
  rw [← current]
  unfold Database.currentSequence
  rw [holds.view_stored client]
  rfl

end Invariant

section Steps

variable {runId : RunId} {accepted : List Append} {world : AppendWorld}

/-- A step that changes one session and nothing else. -/
theorem AppendWorld.Holds.withSession (holds : world.Holds runId accepted) (client : Nat) (session : AppendSession)
    (fits : session.Fits runId (appendedEvents accepted).length)
    (alone : session.rows ≠ [] → ∀ other, (world.sessions other).rows ≠ [] → other = client) :
    (world.withSession client session).Holds runId accepted := by
  have at' (other : Nat) : (world.withSession client session).sessions other =
      if other = client then session else world.sessions other := by
    simp only [AppendWorld.withSession, Function.update_apply]
  refine { holds with sessions := fun other => ?_, alone := fun one two => ?_ }
  · rw [at']
    split
    · exact fits
    · exact holds.sessions other
  · rw [at', at']
    split
    · next first =>
        split
        · next second => exact fun _ _ => first.trans second.symm
        · exact fun written other => first.trans (alone written two other).symm
    · split
      · next second => exact fun other written => (alone written one other).trans second.symm
      · exact holds.alone one two

theorem AppendWorld.Holds.checks (holds : world.Holds runId accepted) (client : Nat) (append : Append) :
    (world.check runId client append).Holds runId accepted := by
  unfold AppendWorld.check
  split
  · exact holds
  · next current =>
      split
      · exact holds
      · next some' =>
          have fits := holds.sessions client
          have expected : (appendedEvents accepted).length + (world.sessions client).rows.length =
              append.expectedSeq := (holds.view_current client).symm.trans (not_not.mp current)
          refine holds.withSession client _ { fits with checked := ?_ } ?_
          · rintro _ ⟨⟩
            exact ⟨fun none' => some' (by simp [none']), expected.ge, fun _ => expected.symm⟩
          · exact fun written other others => holds.alone other client others written

/-- An insert that no row stands in the way of goes on where the log ends. -/
theorem AppendWorld.Holds.expected (holds : world.Holds runId accepted) (client : Nat) (append : Append)
    (now : Instant) (passed : (world.sessions client).checked = some append)
    (free : ∀ row ∈ eventRows runId append.expectedSeq append.events now, world.Free row) (unpruned : Unpruned runId world append) :
    append.expectedSeq = (appendedEvents accepted).length + (world.sessions client).rows.length := by
  obtain ⟨some', bound, written⟩ := (holds.sessions client).checked append passed
  by_cases unwritten : (world.sessions client).rows = []
  · rw [unwritten, List.length_nil, Nat.add_zero] at bound ⊢
    by_contra apart
    have inside : append.expectedSeq < (appendedEvents accepted).length := lt_of_le_of_ne bound apart
    -- the log has a row with the first number of the append
    have numbered := holds.numbered
    have listed : append.expectedSeq + 1 ∈ (world.db.storedEvents runId).map EventRow.sequenceNumber := by
      rw [numbered, List.mem_range'_1]
      have length := holds.stored_length
      have pruned : world.db.prunedUpTo runId ≤ append.expectedSeq := unpruned
      omega
    obtain ⟨row, member, placed⟩ := List.mem_map.mp listed
    obtain ⟨event, rest, same⟩ := List.exists_cons_of_ne_nil some'
    have first := free ⟨runId, append.expectedSeq + 1, event, now⟩ (by simp [eventRows, same])
    obtain ⟨stored, owned⟩ := Database.storedEvents_mem member
    exact first.1 row stored ⟨owned, placed⟩
  · exact written unwritten

theorem AppendWorld.Holds.inserts (holds : world.Holds runId accepted) (client : Nat) (append : Append)
    (now : Instant) (passed : (world.sessions client).checked = some append)
    (free : ∀ row ∈ eventRows runId append.expectedSeq append.events now, world.Free row) (unpruned : Unpruned runId world append) :
    (world.withSession client ((world.sessions client).insert runId append now)).Holds runId accepted := by
  have expected := holds.expected client append now passed free unpruned
  have fits := holds.sessions client
  obtain ⟨some', -, -⟩ := fits.checked append passed
  refine holds.withSession client _ ⟨?_, ?_, ?_, ?_, fun _ none' => nomatch none'⟩ ?_
  · intro row member
    exact (List.mem_append.mp member).elim (fits.owned row) fun added => (eventRows_mem added).1
  · refine fits.numbered.append ?_
    rw [← expected]
    unfold NumberedAfter
    rw [eventRows_sequence, eventRows_length]
  · simp [AppendSession.insert, fits.content, eventRows_event, appendedEvents]
  · refine fits.placed.append ⟨?_, some', trivial⟩
    rw [fits.length]
    exact expected
  · intro _ other written
    by_contra apart
    -- the other transaction already holds the next number
    have unwritten : (world.sessions client).rows = [] := by
      by_contra also
      exact apart (holds.alone other client written also)
    rw [unwritten, List.length_nil, Nat.add_zero] at expected
    obtain ⟨row, rest, rows⟩ := List.exists_cons_of_ne_nil written
    have numbered := (holds.sessions other).numbered
    rw [rows] at numbered
    have owned := (holds.sessions other).owned row (rows ▸ List.mem_cons_self)
    obtain ⟨event, _, same⟩ := List.exists_cons_of_ne_nil some'
    have first := free ⟨runId, append.expectedSeq + 1, event, now⟩ (by simp [eventRows, same])
    refine first.2 other row (rows ▸ List.mem_cons_self) ⟨owned, ?_⟩
    rw [numbered.tail.1, expected]

theorem AppendWorld.Holds.commits (holds : world.Holds runId accepted) (client : Nat) :
    (world.commit client).Holds runId (accepted ++ (world.sessions client).appends) := by
  have fits := holds.sessions client
  have stored : (world.commit client).db.storedEvents runId =
      world.db.storedEvents runId ++ (world.sessions client).rows := holds.view_stored client
  have pruned : (world.commit client).db.prunedUpTo runId = world.db.prunedUpTo runId := rfl
  have longer : (appendedEvents (accepted ++ (world.sessions client).appends)).length =
      (appendedEvents accepted).length + (world.sessions client).rows.length := by
    rw [appendedEvents_append, List.length_append, fits.length]
  have sessions (other : Nat) : (world.commit client).sessions other =
      if other = client then idleSession else world.sessions other := by
    simp only [AppendWorld.commit, AppendWorld.withSession, Function.update_apply]
  refine ⟨?_, ?_, ?_, ?_, holds.base, fun other => ?_, fun one two => ?_, ?_⟩
  · rw [pruned, longer]
    exact le_trans holds.pruned (Nat.le_add_right _ _)
  · rw [pruned]
    exact holds.view_numbered client
  · rw [pruned, stored, List.map_append, holds.content, fits.content, appendedEvents_append,
      List.drop_append_of_le_length holds.pruned]
  · refine holds.placed.append ?_
    rw [Nat.zero_add]
    exact fits.placed
  · rw [sessions]
    split
    · exact idleSession_fits
    · next apart =>
        have other' := holds.sessions other
        by_cases written : (world.sessions client).rows = []
        · rw [longer, written]
          exact other'
        · have unwritten : (world.sessions other).rows = [] := by
            by_contra also
            exact apart (holds.alone other client also written)
          refine ⟨other'.owned, ?_, other'.content, ?_, fun append passed => ?_⟩
          · rw [unwritten]
            rfl
          · rw [other'.empty unwritten]
            trivial
          · obtain ⟨some', bound, exact'⟩ := other'.checked append passed
            refine ⟨some', ?_, fun also => absurd unwritten also⟩
            rw [longer]
            omega
  · rw [sessions, sessions]
    split
    · exact fun idle => absurd rfl idle
    · split
      · exact fun _ idle => absurd rfl idle
      · exact holds.alone one two
  · intro snapshot planned
    obtain ⟨owned, folded, lower, upper⟩ := holds.planned snapshot planned
    refine ⟨owned, folded, lower, ?_⟩
    rw [longer]
    exact le_trans upper (Nat.le_add_right _ _)

theorem AppendWorld.Holds.plans (holds : world.Holds runId accepted) (kept prunedEventCount : Nat)
    (projection : RunProjection)
    (folds : foldRunEvents ((world.db.unseen runId (world.db.base runId).lastSequenceNumber).take kept)
      (world.db.base runId) = .ok projection) :
    { world with compaction := some ⟨runId, projection.lastSequenceNumber, prunedEventCount, projection⟩ }.Holds
      runId accepted := by
  refine { holds with planned := ?_ }
  rintro _ ⟨⟩
  have counted := foldRunEvents_counts folds
  rw [holds.base] at counted
  have whole : world.db.unseen runId (world.db.prunedUpTo runId) = world.db.storedEvents runId := by
    rw [world.db.unseen_eq holds.numbered le_rfl, Nat.sub_self, List.drop_zero]
  rw [whole, List.length_take] at counted
  have length := holds.stored_length
  have bound : min kept (world.db.storedEvents runId).length ≤ (world.db.storedEvents runId).length :=
    Nat.min_le_right _ _
  refine ⟨rfl, rfl, ?_, ?_⟩
  · change world.db.prunedUpTo runId ≤ projection.lastSequenceNumber
    exact counted ▸ Nat.le_add_right _ _
  · change projection.lastSequenceNumber ≤ (appendedEvents accepted).length
    rw [counted, ← length]
    exact Nat.add_le_add_left bound _

theorem AppendWorld.Holds.prunes (holds : world.Holds runId accepted) (snapshot : SnapshotRow)
    (planned : world.compaction = some snapshot) :
    { world with
      db := (world.db.upsertSnapshot snapshot).deleteEvents runId snapshot.lastSequenceNumber
      compaction := none }.Holds runId accepted := by
  obtain ⟨owned, folded, lower, upper⟩ := holds.planned snapshot planned
  have length := holds.stored_length
  have pruned : ((world.db.upsertSnapshot snapshot).deleteEvents runId snapshot.lastSequenceNumber).prunedUpTo
      runId = snapshot.lastSequenceNumber := by
    unfold Database.prunedUpTo
    rw [show ((world.db.upsertSnapshot snapshot).deleteEvents runId snapshot.lastSequenceNumber).snapshots =
      (world.db.upsertSnapshot snapshot).snapshots from rfl, Database.upsertSnapshot_find, if_pos owned.symm]
    rfl
  have stored : ((world.db.upsertSnapshot snapshot).deleteEvents runId snapshot.lastSequenceNumber).storedEvents
      runId = (world.db.storedEvents runId).drop (snapshot.lastSequenceNumber - world.db.prunedUpTo runId) := by
    rw [Database.deleteEvents_storedEvents, if_pos rfl, Database.upsertSnapshot_storedEvents,
      holds.numbered.filter _ lower]
  refine ⟨?_, ?_, ?_, holds.placed, ?_, holds.sessions, holds.alone, fun _ none' => nomatch none'⟩
  · rw [pruned]
    exact upper
  · rw [pruned, stored]
    have rest := holds.numbered.drop (snapshot.lastSequenceNumber - world.db.prunedUpTo runId) (by omega)
    rwa [Nat.add_sub_cancel' lower] at rest
  · rw [pruned, stored, List.map_drop, holds.content, List.drop_drop, Nat.add_sub_cancel' lower]
  · rw [pruned]
    have base : ((world.db.upsertSnapshot snapshot).deleteEvents runId snapshot.lastSequenceNumber).base runId =
        (world.db.upsertSnapshot snapshot).base runId := rfl
    rw [base, Database.upsertSnapshot_base, if_pos owned.symm, folded]

theorem AppendWorld.Holds.elsewhere (holds : world.Holds runId accepted) (db : Database)
    (events : db.storedEvents runId = world.db.storedEvents runId)
    (snapshots : (db.snapshots.find? fun row => row.runId == runId) =
      world.db.snapshots.find? fun row => row.runId == runId) : { world with db := db }.Holds runId accepted := by
  have pruned : db.prunedUpTo runId = world.db.prunedUpTo runId := by
    rw [Database.prunedUpTo, snapshots]
    rfl
  have base : db.base runId = world.db.base runId := by
    rw [Database.base, snapshots]
    rfl
  refine ⟨?_, ?_, ?_, holds.placed, ?_, holds.sessions, holds.alone, ?_⟩
  · exact pruned ▸ holds.pruned
  · change NumberedAfter (db.prunedUpTo runId) (db.storedEvents runId)
    rw [pruned, events]
    exact holds.numbered
  · change (db.storedEvents runId).map EventRow.event = (appendedEvents accepted).drop (db.prunedUpTo runId)
    rw [pruned, events]
    exact holds.content
  · change (db.base runId).lastSequenceNumber = db.prunedUpTo runId
    rw [pruned, base]
    exact holds.base
  · intro snapshot planned
    change _ ∧ _ ∧ db.prunedUpTo runId ≤ _ ∧ _
    rw [pruned]
    exact holds.planned snapshot planned

end Steps

section Runs

variable {runId : RunId} {accepted more : List Append} {world world' : AppendWorld}

theorem AppendWorld.Holds.step (holds : world.Holds runId accepted)
    (step : AppendStep runId (Unpruned runId) world more world') : world'.Holds runId (accepted ++ more) := by
  have same : accepted ++ [] = accepted := List.append_nil accepted
  cases step with
  | checks client append next => exact same.symm ▸ holds.checks client append
  | inserts client append now passed free met => exact same.symm ▸ holds.inserts client append now passed free met
  | aborts client =>
    exact same.symm ▸ holds.withSession client idleSession idleSession_fits fun idle => absurd rfl idle
  | commits client done => exact holds.commits client
  | plans tailEvents row projection unlocked found closed folds prunedEventCount =>
    exact same.symm ▸ holds.plans _ prunedEventCount projection folds
  | abandons => exact same.symm ▸ { holds with planned := fun _ none' => nomatch none' }
  | prunes snapshot planned => exact same.symm ▸ holds.prunes snapshot planned
  | elsewhere db events snapshots => exact same.symm ▸ holds.elsewhere db events snapshots

theorem AppendRun.holds (run : AppendRun runId (Unpruned runId) accepted world) : world.Holds runId accepted := by
  induction run with
  | empty db events snapshots =>
    have pruned : db.prunedUpTo runId = 0 := by
      rw [Database.prunedUpTo, snapshots]
      rfl
    refine ⟨?_, ?_, ?_, trivial, ?_, fun _ => idleSession_fits, fun _ _ idle => absurd rfl idle,
      fun _ none' => nomatch none'⟩
    · exact pruned.le
    · change NumberedAfter (db.prunedUpTo runId) (db.storedEvents runId)
      rw [events]
      rfl
    · change (db.storedEvents runId).map EventRow.event = _
      rw [events]
      simp [appendedEvents]
    · change (db.base runId).lastSequenceNumber = db.prunedUpTo runId
      rw [pruned, Database.base, snapshots]
      rfl
  | step run step holds => exact holds.step step

/-- The log after some appends were accepted, in the order in which they were. `pruned` events
are gone; the others keep their numbers. -/
structure Linearized (runId : RunId) (accepted : List Append) (db : Database) : Prop where
  numbered : NumberedAfter (db.prunedUpTo runId) (db.storedEvents runId)
  content : (db.storedEvents runId).map EventRow.event = (appendedEvents accepted).drop (db.prunedUpTo runId)
  current : db.currentSequence runId = (appendedEvents accepted).length
  placed : ∀ before append after, accepted = before ++ append :: after →
    append.expectedSeq = (appendedEvents before).length
  once : accepted.Pairwise fun one two => one.expectedSeq ≠ two.expectedSeq
  reads : ∀ fromSeq, NumberedAfter (max (db.prunedUpTo runId) fromSeq) (db.unseen runId fromSeq) ∧
    (db.unseen runId fromSeq).map EventRow.event =
      (appendedEvents accepted).drop (max (db.prunedUpTo runId) fromSeq)

/-- What a read from any sequence number answers. -/
theorem AppendWorld.Holds.reads (holds : world.Holds runId accepted) (fromSeq : Nat) :
    NumberedAfter (max (world.db.prunedUpTo runId) fromSeq) (world.db.unseen runId fromSeq) ∧
      (world.db.unseen runId fromSeq).map EventRow.event = (appendedEvents accepted).drop (max (world.db.prunedUpTo runId) fromSeq) := by
  have length := holds.stored_length
  have read := world.db.unseen_max holds.numbered fromSeq
  have lower : world.db.prunedUpTo runId ≤ max (world.db.prunedUpTo runId) fromSeq := le_max_left _ _
  rw [read]
  constructor
  · by_cases inside : max (world.db.prunedUpTo runId) fromSeq - world.db.prunedUpTo runId ≤
        (world.db.storedEvents runId).length
    · have rest := holds.numbered.drop _ inside
      rwa [Nat.add_sub_cancel' lower] at rest
    · rw [List.drop_eq_nil_of_le (Nat.le_of_not_le inside)]
      rfl
  · rw [List.map_drop, holds.content, List.drop_drop, Nat.add_sub_cancel' lower]

/-- As long as no insert comes after a compaction of what its append expects, the log is the
accepted appends in order: each was placed where it expected, and no two at the same place. -/
theorem appends_linearizable (run : AppendRun runId (Unpruned runId) accepted world) : Linearized runId accepted world.db := by
  have holds := run.holds
  refine ⟨holds.numbered, holds.content, ?_, ?_, holds.placed.once, holds.reads⟩
  · have current := currentSequence_numbered holds.numbered
    rw [holds.stored_length] at current
    exact current
  · rintro before append after rfl
    rw [holds.placed.split, Nat.zero_add]

/-- An append that nobody interferes with is the transaction that the engine's operations make. -/
theorem AppendWorld.append_alone {client : Nat} {append : Append} {now : Instant} (idle : world.sessions client = idleSession)
    (current : world.db.currentSequence runId = append.expectedSeq) :
    ((world.withSession client ((world.sessions client).insert runId append now)).commit client).db =
      world.db.appended runId append.events now := by
  simp [AppendWorld.commit, AppendWorld.withSession, AppendWorld.view, AppendSession.insert, idle, idleSession,
    Database.appended, current]

end Runs

section Race

/-- A run without a log. -/
def unloggedRun (status : RunState) : Database :=
  { emptyDatabase with
    runs := [{ startedRunRow 0 "main" ⟨"order", .null, none, none, none⟩ .epoch 0 with status := status }] }

def unloggedWorld : AppendWorld := ⟨unloggedRun .running, fun _ => idleSession, none⟩

def AppendWorld.inserted (world : AppendWorld) (client : Nat) (append : Append) : AppendWorld :=
  world.withSession client ((world.sessions client).insert 0 append .epoch)

def startAppend : Append := ⟨0, [.runStarted "order" .null]⟩

def closeAppend : Append := ⟨1, [.runTerminated none]⟩

def signalAppend : Append := ⟨1, [.signalReceived "approve" .null]⟩

/-- The world after the run was started. -/
def startedWorld : AppendWorld := ((unloggedWorld.check 0 0 startAppend).inserted 0 startAppend).commit 0

/-- Two transactions have checked one sequence number, and the first one has closed the run. -/
def racedWorld : AppendWorld :=
  (((startedWorld.check 0 0 closeAppend).check 0 1 signalAppend).inserted 0 closeAppend).commit 0

def closedWorld : AppendWorld :=
  { racedWorld with db := { racedWorld.db with runs := (unloggedRun .terminated).runs } }

/-- What a compaction without a tail makes of the two events. -/
def racedSnapshot : SnapshotRow :=
  ⟨0, 2, 2, { createInitialProjection with state := .terminated, closedAt := some .epoch, lastSequenceNumber := 2 }⟩

def prunedWorld : AppendWorld :=
  { closedWorld with db := (closedWorld.db.upsertSnapshot racedSnapshot).deleteEvents 0 2, compaction := none }

/-- No open transaction holds a row. -/
def AppendWorld.Unwritten (world : AppendWorld) : Prop := ∀ client, (world.sessions client).rows = []

section Alone

variable {meets : AppendWorld → Append → Prop} {accepted : List Append} {world : AppendWorld} {client : Nat}
  {append : Append}

@[simp] theorem AppendWorld.check_db {runId : RunId} : (world.check runId client append).db = world.db := by
  unfold AppendWorld.check
  split
  · rfl
  · split <;> rfl

theorem AppendWorld.Unwritten.check {runId : RunId} (unwritten : world.Unwritten) : (world.check runId client append).Unwritten := by
  intro other
  unfold AppendWorld.check
  split
  · exact unwritten other
  · split
    · exact unwritten other
    · simp only [AppendWorld.withSession, Function.update_apply]
      split
      · exact unwritten client
      · exact unwritten other

theorem AppendWorld.Unwritten.appended (unwritten : world.Unwritten) : ((world.inserted client append).commit client).Unwritten := by
  intro other
  simp only [AppendWorld.commit, AppendWorld.inserted, AppendWorld.withSession, Function.update_apply]
  split
  · rfl
  · exact unwritten other

/-- An append that was checked is inserted and committed while no other transaction writes. -/
theorem AppendRun.appends (run : AppendRun 0 meets accepted world) (unwritten : world.Unwritten)
    (passed : (world.sessions client).checked = some append) (first : (world.sessions client).appends = [])
    (behind : ∀ other ∈ world.db.events, other.sequenceNumber ≤ append.expectedSeq) (met : meets world append) :
    AppendRun 0 meets (accepted ++ [append]) ((world.inserted client append).commit client) := by
  have inserted : AppendRun 0 meets (accepted ++ []) (world.inserted client append) := by
    refine run.step (.inserts client append .epoch passed (fun row member => ⟨?_, ?_⟩) met)
    · rintro other stored ⟨-, same⟩
      have above := (eventRows_mem member).2.2
      have below := behind other stored
      omega
    · intro other held member
      rw [unwritten other] at member
      cases member
  have own : (world.inserted client append).sessions client = (world.sessions client).insert 0 append .epoch := by
    simp [AppendWorld.inserted, AppendWorld.withSession]
  have committed := inserted.step (.commits client (by rw [own]; rfl))
  rw [own, List.append_nil] at committed
  simpa only [AppendSession.insert, first, List.nil_append] using committed

end Alone

theorem startedWorld_run (meets : AppendWorld → Append → Prop)
    (met : meets (unloggedWorld.check 0 0 startAppend) startAppend) : AppendRun 0 meets [startAppend] startedWorld := by
  have began : AppendRun 0 meets [] unloggedWorld := .empty _ rfl rfl
  have unwritten : unloggedWorld.Unwritten := fun _ => rfl
  exact (began.step (.checks 0 startAppend rfl)).appends unwritten.check rfl rfl
    (by simp [unloggedWorld, unloggedRun, emptyDatabase]) met

theorem startedWorld_unwritten : startedWorld.Unwritten := AppendWorld.Unwritten.appended (.check fun _ => rfl)

/-- Two sessions check their appends before either inserts; the first closes the run, which is compacted. -/
theorem prunedWorld_run (meets : AppendWorld → Append → Prop) (met : meets (unloggedWorld.check 0 0 startAppend) startAppend)
    (met' : meets ((startedWorld.check 0 0 closeAppend).check 0 1 signalAppend) closeAppend) :
    AppendRun 0 meets [startAppend, closeAppend] prunedWorld := by
  have unwritten := startedWorld_unwritten
  have checked : AppendRun 0 meets [startAppend] ((startedWorld.check 0 0 closeAppend).check 0 1 signalAppend) :=
    ((startedWorld_run _ met).step (.checks 0 closeAppend rfl)).step (.checks 1 signalAppend rfl)
  have raced : AppendRun 0 meets [startAppend, closeAppend] racedWorld := by
    have stored : startedWorld.db.events = eventRows 0 0 startAppend.events .epoch := rfl
    refine checked.appends unwritten.check.check rfl rfl (fun other member => ?_) met'
    rw [AppendWorld.check_db, AppendWorld.check_db, stored] at member
    rw [List.mem_singleton.mp member]
    exact le_rfl
  have closed : AppendRun 0 meets [startAppend, closeAppend] closedWorld := raced.step (.elsewhere _ rfl rfl)
  have folds : foldRunEvents ((closedWorld.db.unseen 0 (closedWorld.db.base 0).lastSequenceNumber).take
      ((closedWorld.db.unseen 0 (closedWorld.db.base 0).lastSequenceNumber).length - 0))
      (closedWorld.db.base 0) = .ok racedSnapshot.projection := rfl
  have planned := closed.step (.plans 0 _ racedSnapshot.projection rfl rfl rfl folds 2)
  exact planned.step (.prunes racedSnapshot rfl)

theorem appends_linearizable_started : Linearized 0 [startAppend, closeAppend] prunedWorld.db :=
  appends_linearizable (prunedWorld_run _ (Nat.zero_le _) (Nat.zero_le _))

/-- An append that was checked before its run was closed and compacted is inserted after it:
two appends after one sequence number are accepted. -/
theorem appends_not_linearizable : ∃ accepted world, AppendRun 0 (fun _ _ => True) accepted world ∧ ¬ Linearized 0 accepted world.db := by
  have unwritten := startedWorld_unwritten
  have pruned : AppendRun 0 (fun _ _ => True) [startAppend, closeAppend] prunedWorld := prunedWorld_run _ trivial trivial
  have quiet : racedWorld.Unwritten := unwritten.check.check.appended
  have still : prunedWorld.Unwritten := fun client => quiet client
  have empty : prunedWorld.db.events = [] := rfl
  have own : prunedWorld.sessions 1 = ((startedWorld.check 0 0 closeAppend).check 0 1 signalAppend).sessions 1 := rfl
  have waiting : ((startedWorld.check 0 0 closeAppend).check 0 1 signalAppend).sessions 1 =
      ⟨[], [], some signalAppend⟩ := rfl
  rw [waiting] at own
  have late : AppendRun 0 (fun _ _ => True) ([startAppend, closeAppend] ++ [signalAppend])
      ((prunedWorld.inserted 1 signalAppend).commit 1) := by
    refine pruned.appends still (congrArg AppendSession.checked own) (congrArg AppendSession.appends own)
      (fun other member => ?_) trivial
    rw [empty] at member
    cases member
  refine ⟨_, _, late, fun linearized => ?_⟩
  simpa [closeAppend, signalAppend] using linearized.once

end Race

end DurableExecution.Engine

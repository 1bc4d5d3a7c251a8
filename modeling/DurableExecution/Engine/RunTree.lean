import Mathlib.Logic.Relation
import DurableExecution.Engine.Frames

/-
This file says how runs hang below one another and what the tables say of each of them. The
order of a tree follows from the ids, which every operation keeps.
-/

namespace DurableExecution.Engine

open Workflow (JsValue WorkflowEvent Instant)
open Transaction
open Relation (ReflTransGen)

/-- The rows are told apart by their ids, later rows hang below earlier ones, the head of a
child's chain knows the child by name, and no row has folded what is not in its log. -/
structure Database.Tidy (db : Database) : Prop where
  distinct : (db.runs.map RunRow.id).Nodup
  fresh : ∀ row ∈ db.runs, row.id < db.nextId
  parents : ∀ row ∈ db.runs, ∀ parent, row.parentRunId = some parent → parent < row.id
  linked : ∀ row ∈ db.runs, row.parentRunId.isSome = true →
    ∃ head ∈ db.runs, head.id = row.firstRunId ∧ head.parentChildId.isSome = true
  seen : ∀ row ∈ db.runs, row.lastSequenceNumber ≤ db.currentSequence row.id

def KeepsTidy (db db' : Database) : Prop := db.Tidy → db'.Tidy

section Tidiness

variable {db : Database} {runId : RunId}

theorem emptyDatabase_tidy : emptyDatabase.Tidy := by
  constructor
  all_goals simp [emptyDatabase]

theorem Database.mem_sequence {stored : EventRow} (listed : stored ∈ db.storedEvents runId) :
    stored.sequenceNumber ≤ db.currentSequence runId := by
  refine le_trans ?_ (Nat.le_max_left _ _)
  have member := List.mem_map_of_mem (f := EventRow.sequenceNumber) listed
  obtain ⟨largest, found⟩ := Option.isSome_iff_exists.mp (List.isSome_max?_of_mem member)
  rw [found, Option.getD_some]
  exact (List.max?_eq_some_iff.mp found).2 _ member

/-- A longer log ends no earlier. -/
theorem Database.currentSequence_mono {db' : Database} (snapshots : db'.snapshots = db.snapshots)
    (longer : ∀ stored ∈ db.storedEvents runId, stored ∈ db'.storedEvents runId) :
    db.currentSequence runId ≤ db'.currentSequence runId := by
  refine max_le ?_ (by rw [Database.currentSequence, snapshots]; exact le_max_right _ _)
  cases found : ((db.storedEvents runId).map EventRow.sequenceNumber).max? with
  | none => exact Nat.zero_le _
  | some largest =>
    obtain ⟨stored, listed, rfl⟩ := List.mem_map.mp (List.max?_mem found)
    exact db'.mem_sequence (longer stored listed)

/-- A fold ends where it starts, or at an event that it folds. -/
theorem foldRunEvents_sequence {events : List EventRow} {start next : RunProjection} (folds : foldRunEvents events start = .ok next) :
    next.lastSequenceNumber = start.lastSequenceNumber ∨ ∃ stored ∈ events, stored.sequenceNumber = next.lastSequenceNumber := by
  induction events generalizing start with
  | nil =>
    cases folds
    exact .inl rfl
  | cons first rest ih =>
    simp only [foldRunEvents, List.foldlM_cons, bind, Except.bind] at folds
    split at folds
    · cases folds
    · next middle applied =>
        rcases ih folds with same | ⟨stored, listed, same⟩
        · exact .inr ⟨first, List.mem_cons_self, (same.trans (applyEventToProjection_ok applied).2.1).symm⟩
        · exact .inr ⟨stored, List.mem_cons_of_mem _ listed, same⟩

theorem Database.mem_unseen {fromSeq : Nat} {stored : EventRow} :
    stored ∈ db.unseen runId fromSeq ↔ stored ∈ db.storedEvents runId ∧ fromSeq < stored.sequenceNumber := by
  rw [Database.unseen, List.mem_insertionSort, List.mem_filter, decide_eq_true_iff]

/-- Rows that change in other columns stay tidy. -/
theorem Database.Tidy.updateRun {change : RunRow → RunRow} (tidy : db.Tidy)
    (keeps : ∀ row, (change row).id = row.id ∧ (change row).parentRunId = row.parentRunId ∧
      (change row).firstRunId = row.firstRunId ∧ (change row).parentChildId = row.parentChildId)
    (seen : ∀ row ∈ db.runs, row.id = runId → (change row).lastSequenceNumber ≤ db.currentSequence runId) :
    (db.updateRun runId change).Tidy := by
  have rows : ∀ row ∈ (db.updateRun runId change).runs, ∃ old ∈ db.runs, row.id = old.id ∧
      row.parentRunId = old.parentRunId ∧ row.firstRunId = old.firstRunId ∧
      row.lastSequenceNumber ≤ db.currentSequence row.id := by
    intro row member
    obtain ⟨old, listed, rfl⟩ := List.mem_map.mp member
    refine ⟨old, listed, ?_⟩
    split
    · next named =>
        refine ⟨(keeps old).1, (keeps old).2.1, (keeps old).2.2.1, ?_⟩
        rw [(keeps old).1, named]
        exact seen old listed named
    · exact ⟨rfl, rfl, rfl, tidy.seen old listed⟩
  constructor
  · have same : (db.updateRun runId change).runs.map RunRow.id = db.runs.map RunRow.id := by
      simp only [Database.updateRun, List.map_map]
      refine List.map_congr_left fun row _ => ?_
      simp only [Function.comp_apply]
      split
      · exact (keeps row).1
      · rfl
    rw [same]
    exact tidy.distinct
  · intro row member
    obtain ⟨old, listed, id, -⟩ := rows row member
    rw [id]
    exact tidy.fresh old listed
  · intro row member parent named
    obtain ⟨old, listed, id, below, -⟩ := rows row member
    rw [id]
    exact tidy.parents old listed parent (below.symm.trans named)
  · intro row member hangs
    obtain ⟨old, listed, -, below, first, -⟩ := rows row member
    obtain ⟨head, listed', id, named⟩ := tidy.linked old listed (below ▸ hangs)
    refine ⟨if head.id = runId then change head else head, List.mem_map_of_mem listed', ?_⟩
    rw [first]
    split
    · exact ⟨(keeps head).1.trans id, (congrArg Option.isSome (keeps head).2.2.2).trans named⟩
    · exact ⟨id, named⟩
  · intro row member
    obtain ⟨old, -, -, -, -, seen⟩ := rows row member
    exact seen

/-- Other tables do not matter. -/
theorem Database.Tidy.congr {db' : Database} (tidy : db.Tidy) (runs : db'.runs = db.runs)
    (nextId : db.nextId ≤ db'.nextId) (snapshots : db'.snapshots = db.snapshots)
    (events : ∀ stored ∈ db.events, stored ∈ db'.events) : db'.Tidy := by
  constructor
  · rw [runs]
    exact tidy.distinct
  · rw [runs]
    exact fun row member => lt_of_lt_of_le (tidy.fresh row member) nextId
  · rw [runs]
    exact tidy.parents
  · rw [runs]
    exact tidy.linked
  · rw [runs]
    refine fun row member => (tidy.seen row member).trans (Database.currentSequence_mono snapshots fun stored listed => ?_)
    obtain ⟨kept, owner⟩ := Database.storedEvents_mem listed
    exact List.mem_filter.mpr ⟨events stored kept, by simpa using owner⟩

theorem Database.Tidy.addRun {row : RunId → RunRow} (tidy : db.Tidy) (newborn : db.Newborn row) : (db.addRun row).Tidy := by
  have apart : ∀ old ∈ db.runs, old.id ≠ (row db.nextId).id := by
    intro old member same
    rw [newborn.id] at same
    exact absurd same (Nat.ne_of_lt (tidy.fresh old member))
  constructor
  · change ((db.runs ++ [row db.nextId]).map RunRow.id).Nodup
    rw [List.map_append, List.nodup_append]
    refine ⟨tidy.distinct, by simp, fun id listed id' added same => ?_⟩
    obtain ⟨old, member, rfl⟩ := List.mem_map.mp listed
    rw [List.map_singleton, List.mem_singleton] at added
    exact apart old member (same.trans added)
  · intro other member
    rcases List.mem_append.mp member with old | added
    · exact Nat.lt_succ_of_lt (tidy.fresh other old)
    · rw [List.mem_singleton.mp added, newborn.id]
      exact Nat.lt_succ_self _
  · intro other member parent named
    rcases List.mem_append.mp member with old | added
    · exact tidy.parents other old parent named
    · rw [List.mem_singleton.mp added] at named ⊢
      rw [newborn.id]
      cases newborn.placed db.nextId with
      | root free => cases free.symm.trans named
      | @child above listed hangs head named' =>
        cases hangs.symm.trans named
        exact tidy.fresh above listed
      | @next older listed hangs chain =>
        exact lt_trans (tidy.parents older listed parent (hangs.symm.trans named)) (tidy.fresh older listed)
  · intro other member hangs
    have kept : ∀ old ∈ db.runs, old ∈ (db.addRun row).runs := fun old listed => List.mem_append_left _ listed
    rcases List.mem_append.mp member with old | added
    · obtain ⟨head, listed, id, named⟩ := tidy.linked other old hangs
      exact ⟨head, kept head listed, id, named⟩
    · rw [List.mem_singleton.mp added] at hangs ⊢
      cases newborn.placed db.nextId with
      | root free => rw [free] at hangs; cases hangs
      | child listed hangs' head named =>
        exact ⟨row db.nextId, List.mem_append_right _ (List.mem_singleton_self _), head.symm, named⟩
      | @next older listed hangs' chain =>
        obtain ⟨head, listed', id, named⟩ := tidy.linked older listed (hangs' ▸ hangs)
        exact ⟨head, kept head listed', id.trans chain.symm, named⟩
  · intro other member
    rcases List.mem_append.mp member with old | added
    · exact tidy.seen other old
    · rw [List.mem_singleton.mp added, newborn.unseen]
      exact Nat.zero_le _

theorem keepsTidy_whole : WholeFrame KeepsTidy where
  control _ _ := trivial
  refl _ tidy := tidy
  trans _ _ _ first second tidy := second (first tidy)
  appended _ _ _ tidy := tidy.congr rfl le_rfl rfl fun _ listed => List.mem_append_left _ listed
  projected db runId row next found folds tidy := by
    refine tidy.updateRun (fun _ => ⟨rfl, rfl, rfl, rfl⟩) fun other member named => ?_
    have same : other = row := by
      have found' := Database.mem_run? tidy.distinct member
      rw [named, found] at found'
      exact (Option.some.inj found').symm
    change next.lastSequenceNumber ≤ _
    rcases foldRunEvents_sequence folds with kept | ⟨stored, listed, last⟩
    · have seen := tidy.seen other member
      rw [named, same] at seen
      exact kept ▸ seen
    · rw [← last]
      exact db.mem_sequence (Database.mem_unseen.mp listed).1
  limited db runId _ _ tidy := by
    refine tidy.updateRun (fun _ => ⟨rfl, rfl, rfl, rfl⟩) fun row member named => ?_
    have seen := tidy.seen row member
    rw [named] at seen
    exact seen
  opened _ _ newborn tidy := tidy.addRun newborn
  tasked _ _ _ _ _ _ tidy := tidy.congr rfl (Nat.le_succ _) rfl fun _ => id
  withdrawn _ _ tidy := tidy.congr rfl le_rfl rfl fun _ => id
  timed _ _ tidy := tidy.congr rfl le_rfl rfl fun _ => id
  decided _ _ tidy := tidy.congr rfl le_rfl rfl fun _ => id
  resulted _ _ tidy := tidy.congr rfl le_rfl rfl fun _ => id
  attempted _ _ tidy := tidy.congr rfl le_rfl rfl fun _ => id

end Tidiness

end DurableExecution.Engine

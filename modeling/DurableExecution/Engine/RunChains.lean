import DurableExecution.Engine.Schema

/-
This file is about chains of runs: which runs a transaction brings into being, and that a chain
has at most one open run, the last one, of which the parent has not heard yet.
-/

namespace DurableExecution.Engine

open Workflow (JsValue WorkflowEvent Instant)

/-- The event tells a parent how its child of this name closed. -/
def isOutcomeOf (childId : String) : WorkflowEvent → Bool
  | .childCompleted other _ | .childFailed other _ => other == childId
  | _ => false

/-- The event closes its run and lets the chain go on. -/
def isContinuation : WorkflowEvent → Bool
  | .runContinuedAsNew _ => true
  | _ => false

/-- What a log says of how a child closed. -/
def Database.outcomes (db : Database) (parentRunId : RunId) (childId : String) : List WorkflowEvent :=
  (db.log parentRunId).filter (isOutcomeOf childId)

/-- The runs that a transaction brings into being: heads of chains, each child under a name of its
own, and at most one run that follows an open run of its chain. -/
inductive Bears (runs : List RunRow) : Option RunId → List RunRow → Prop
  | refl : Bears runs none runs
  | head {continuing : Option RunId} {middle : List RunRow} {row : RunRow} (bears : Bears runs continuing middle)
      (running : row.status = .running) (first : row.firstRunId = row.id) (unfollowed : row.continuedFromRunId = none)
      (named : row.parentChildId.isSome = row.parentRunId.isSome)
      (known : ∀ parentRunId, row.parentRunId = some parentRunId → ∃ parent ∈ middle, parent.id = parentRunId)
      (fresh : ∀ old ∈ middle, row.parentRunId.isSome = true →
        ¬ (old.parentRunId = row.parentRunId ∧ old.parentChildId = row.parentChildId)) :
      Bears runs continuing (middle ++ [row])
  | next {middle : List RunRow} {row older : RunRow} (bears : Bears runs none middle) (listed : older ∈ middle)
      (open' : older.status = .running) (running : row.status = .running) (chain : row.firstRunId = older.firstRunId)
      (hangs : row.parentRunId = older.parentRunId) (unnamed : row.parentChildId = none)
      (follows : row.continuedFromRunId = some older.id) : Bears runs (some older.id) (middle ++ [row])

/-- The status of a run, when one is about to continue as new. -/
def RunRow.statusOnce (continuing : Option RunId) (row : RunRow) : RunState :=
  if continuing = some row.id then .continuedAsNew else row.status

/-- Chains of runs, and what the parents have heard of them. -/
structure Chained (continuing : Option RunId) (runs : List RunRow) (outcomes : RunId → String → List WorkflowEvent) : Prop where
  head : ∀ row ∈ runs, ∃ head ∈ runs, head.id = row.firstRunId ∧ head.firstRunId = head.id ∧
    head.parentRunId = row.parentRunId ∧ head.parentChildId.isSome = head.parentRunId.isSome
  known : ∀ row ∈ runs, ∀ parentRunId, row.parentRunId = some parentRunId → ∃ parent ∈ runs, parent.id = parentRunId
  headed : ∀ row ∈ runs, row.parentChildId.isSome = true → row.firstRunId = row.id
  named : ∀ one ∈ runs, ∀ two ∈ runs, one.parentRunId.isSome = true → one.parentChildId.isSome = true →
    one.parentRunId = two.parentRunId → one.parentChildId = two.parentChildId → one.id = two.id
  alone : ∀ one ∈ runs, ∀ two ∈ runs, one.firstRunId = two.firstRunId → one.id ≠ two.id →
    one.statusOnce continuing = .running → two.statusOnce continuing = .continuedAsNew
  onward : ∀ row ∈ runs, ∀ older, row.continuedFromRunId = some older →
    ∃ before ∈ runs, before.id = older ∧ before.statusOnce continuing = .continuedAsNew
  lagging : ∀ runId, continuing = some runId → ∃ row ∈ runs, row.id = runId ∧ row.status = .running
  heard : ∀ parentRunId childId, outcomes parentRunId childId ≠ [] → ∃ head ∈ runs,
    head.parentRunId = some parentRunId ∧ head.parentChildId = some childId ∧
      ∀ row ∈ runs, row.firstRunId = head.id → row.statusOnce continuing ≠ .running
  once : ∀ parentRunId childId, (outcomes parentRunId childId).length ≤ 1

section Births

variable {runs middle : List RunRow} {continuing : Option RunId} {outcomes : RunId → String → List WorkflowEvent} {row : RunRow}

/-- The head of a new chain joins. -/
theorem Chained.addHead (chained : Chained continuing runs outcomes) (apart : ∀ old ∈ runs, old.id ≠ row.id)
    (running : row.status = .running) (first : row.firstRunId = row.id) (unfollowed : row.continuedFromRunId = none)
    (named : row.parentChildId.isSome = row.parentRunId.isSome)
    (known : ∀ parentRunId, row.parentRunId = some parentRunId → ∃ parent ∈ runs, parent.id = parentRunId)
    (fresh : ∀ old ∈ runs, row.parentRunId.isSome = true → ¬ (old.parentRunId = row.parentRunId ∧ old.parentChildId = row.parentChildId)) :
    Chained continuing (runs ++ [row]) outcomes := by
  have elsewhere : ∀ old ∈ runs, old.firstRunId ≠ row.id := by
    intro old listed same
    obtain ⟨head, member, id, -⟩ := chained.head old listed
    exact apart head member (id.trans same)
  constructor
  · intro other member
    rcases List.mem_append.mp member with old | added
    · obtain ⟨head, listed, rest⟩ := chained.head other old
      exact ⟨head, List.mem_append_left _ listed, rest⟩
    · rw [List.mem_singleton.mp added]
      exact ⟨row, List.mem_append_right _ (List.mem_singleton_self _), first.symm, first, rfl, named⟩
  · intro other member parentRunId hangs
    have kept : ∃ parent ∈ runs, parent.id = parentRunId := by
      rcases List.mem_append.mp member with old | added
      · exact chained.known other old parentRunId hangs
      · rw [List.mem_singleton.mp added] at hangs
        exact known parentRunId hangs
    obtain ⟨parent, listed, id⟩ := kept
    exact ⟨parent, List.mem_append_left _ listed, id⟩
  · intro other member isSome
    rcases List.mem_append.mp member with old | added
    · exact chained.headed other old isSome
    · rw [List.mem_singleton.mp added]
      exact first
  · intro one member two member' hangs isSome parent child
    rcases List.mem_append.mp member with old | added <;> rcases List.mem_append.mp member' with old' | added'
    · exact chained.named one old two old' hangs isSome parent child
    · rw [List.mem_singleton.mp added'] at parent child
      exact absurd ⟨parent, child⟩ (fresh one old (parent ▸ hangs))
    · rw [List.mem_singleton.mp added] at parent child hangs
      exact absurd ⟨parent.symm, child.symm⟩ (fresh two old' hangs)
    · rw [List.mem_singleton.mp added, List.mem_singleton.mp added']
  · intro one member two member' chain away runs
    rcases List.mem_append.mp member with old | added <;> rcases List.mem_append.mp member' with old' | added'
    · exact chained.alone one old two old' chain away runs
    · rw [List.mem_singleton.mp added', first] at chain
      exact absurd chain (elsewhere one old)
    · rw [List.mem_singleton.mp added, first] at chain
      exact absurd chain.symm (elsewhere two old')
    · rw [List.mem_singleton.mp added, List.mem_singleton.mp added'] at away
      exact absurd rfl away
  · intro other member older follows
    rcases List.mem_append.mp member with old | added
    · obtain ⟨before, listed, rest⟩ := chained.onward other old older follows
      exact ⟨before, List.mem_append_left _ listed, rest⟩
    · rw [List.mem_singleton.mp added, unfollowed] at follows
      cases follows
  · intro runId lags
    obtain ⟨other, listed, rest⟩ := chained.lagging runId lags
    exact ⟨other, List.mem_append_left _ listed, rest⟩
  · intro parentRunId childId some'
    obtain ⟨head, listed, parent, child, shut⟩ := chained.heard parentRunId childId some'
    refine ⟨head, List.mem_append_left _ listed, parent, child, fun other member chain => ?_⟩
    rcases List.mem_append.mp member with old | added
    · exact shut other old chain
    · rw [List.mem_singleton.mp added, first] at chain
      exact absurd chain.symm (apart head listed)
  · exact chained.once

/-- The next run of a chain joins, and the run that it follows is about to continue as new. -/
theorem Chained.addNext {older : RunRow} (chained : Chained none runs outcomes) (apart : ∀ old ∈ runs, old.id ≠ row.id)
    (distinct : ∀ one ∈ runs, ∀ two ∈ runs, one.id = two.id → one = two) (listed : older ∈ runs) (open' : older.status = .running)
    (chain : row.firstRunId = older.firstRunId) (hangs : row.parentRunId = older.parentRunId) (unnamed : row.parentChildId = none)
    (follows : row.continuedFromRunId = some older.id) : Chained (some older.id) (runs ++ [row]) outcomes := by
  have lags : older.statusOnce (some older.id) = .continuedAsNew := by simp [RunRow.statusOnce]
  have plain : ∀ other : RunRow, other.id ≠ older.id → other.statusOnce (some older.id) = other.statusOnce none := by
    intro other away
    simp [RunRow.statusOnce, Ne.symm away]
  have going : older.statusOnce none = .running := by simpa [RunRow.statusOnce] using open'
  -- the open run of a chain is the only run of it that is open
  have sole : ∀ other ∈ runs, other.firstRunId = older.firstRunId → other.statusOnce (some older.id) = .continuedAsNew := by
    intro other member same
    by_cases here : other.id = older.id
    · rw [distinct other member older listed here]
      exact lags
    · rw [plain other here]
      exact chained.alone older listed other member same.symm (Ne.symm here) going
  constructor
  · intro other member
    rcases List.mem_append.mp member with old | added
    · obtain ⟨head, listed, rest⟩ := chained.head other old
      exact ⟨head, List.mem_append_left _ listed, rest⟩
    · rw [List.mem_singleton.mp added, chain, hangs]
      obtain ⟨head, listed, rest⟩ := chained.head older listed
      exact ⟨head, List.mem_append_left _ listed, rest⟩
  · intro other member parentRunId hangs'
    have kept : ∃ parent ∈ runs, parent.id = parentRunId := by
      rcases List.mem_append.mp member with old | added
      · exact chained.known other old parentRunId hangs'
      · rw [List.mem_singleton.mp added, hangs] at hangs'
        exact chained.known older listed parentRunId hangs'
    obtain ⟨parent, listed, id⟩ := kept
    exact ⟨parent, List.mem_append_left _ listed, id⟩
  · intro other member isSome
    rcases List.mem_append.mp member with old | added
    · exact chained.headed other old isSome
    · rw [List.mem_singleton.mp added, unnamed] at isSome
      cases isSome
  · intro one member two member' parent isSome sameParent child
    rcases List.mem_append.mp member with old | added
    · rcases List.mem_append.mp member' with old' | added'
      · exact chained.named one old two old' parent isSome sameParent child
      · rw [List.mem_singleton.mp added', unnamed] at child
        rw [child] at isSome
        cases isSome
    · rw [List.mem_singleton.mp added, unnamed] at isSome
      cases isSome
  · intro one member two member' same away runs
    rcases List.mem_append.mp member with old | added
    · rcases List.mem_append.mp member' with old' | added'
      · by_cases here : one.id = older.id
        · rw [distinct one old older listed here, lags] at runs
          cases runs
        · by_cases there : two.id = older.id
          · rw [distinct two old' older listed there]
            exact lags
          · rw [plain one here] at runs
            rw [plain two there]
            exact chained.alone one old two old' same away runs
      · rw [List.mem_singleton.mp added', chain] at same
        rw [sole one old same] at runs
        cases runs
    · rcases List.mem_append.mp member' with old' | added'
      · rw [List.mem_singleton.mp added, chain] at same
        exact sole two old' same.symm
      · rw [List.mem_singleton.mp added, List.mem_singleton.mp added'] at away
        exact absurd rfl away
  · intro other member before follows'
    rcases List.mem_append.mp member with old | added
    · obtain ⟨earlier, listed', id, status⟩ := chained.onward other old before follows'
      refine ⟨earlier, List.mem_append_left _ listed', id, ?_⟩
      by_cases here : earlier.id = older.id
      · rw [distinct earlier listed' older listed here]
        exact lags
      · rw [plain earlier here]
        exact status
    · rw [List.mem_singleton.mp added, follows] at follows'
      exact ⟨older, List.mem_append_left _ listed, Option.some.inj follows', lags⟩
  · rintro runId ⟨⟩
    exact ⟨older, List.mem_append_left _ listed, rfl, open'⟩
  · intro parentRunId childId some'
    obtain ⟨head, listed', parent, child, shut⟩ := chained.heard parentRunId childId some'
    refine ⟨head, List.mem_append_left _ listed', parent, child, fun other member same => ?_⟩
    rcases List.mem_append.mp member with old | added
    · by_cases here : other.id = older.id
      · rw [distinct other old older listed here, lags]
        exact nofun
      · rw [plain other here]
        exact shut other old same
    · rw [List.mem_singleton.mp added, chain] at same
      exact absurd going (shut older listed same)
  · exact chained.once

theorem Bears.longer (bears : Bears runs continuing middle) : ∃ born, middle = runs ++ born := by
  induction bears with
  | refl => exact ⟨[], (List.append_nil _).symm⟩
  | @head _ _ row _ _ _ _ _ _ _ ih =>
    obtain ⟨born, rfl⟩ := ih
    exact ⟨born ++ [row], List.append_assoc ..⟩
  | @next _ row _ _ _ _ _ _ _ _ _ ih =>
    obtain ⟨born, rfl⟩ := ih
    exact ⟨born ++ [row], List.append_assoc ..⟩

/-- Chains stay chains when runs are born, as long as the runs' ids differ. -/
theorem Bears.chained (bears : Bears runs continuing middle) (distinct : (middle.map RunRow.id).Nodup)
    (chained : Chained none runs outcomes) : Chained continuing middle outcomes := by
  have split {rows : List RunRow} {row : RunRow} (distinct : ((rows ++ [row]).map RunRow.id).Nodup) :
      (rows.map RunRow.id).Nodup ∧ ∀ old ∈ rows, old.id ≠ row.id := by
    rw [List.map_append, List.nodup_append] at distinct
    exact ⟨distinct.1, fun old listed => distinct.2.2 old.id (List.mem_map_of_mem listed) row.id (by simp)⟩
  induction bears with
  | refl => exact chained
  | head _ running first unfollowed named known fresh ih =>
    obtain ⟨distinct', apart⟩ := split distinct
    exact (ih distinct').addHead apart running first unfollowed named known fresh
  | next _ listed open' running chain hangs unnamed follows ih =>
    obtain ⟨distinct', apart⟩ := split distinct
    exact (ih distinct').addNext apart (fun one member two member' same => List.inj_on_of_nodup_map distinct' member member' same)
      listed open' chain hangs unnamed follows

/-- Heads of chains are born after what was born before. -/
theorem Bears.heads {runs middle last : List RunRow} {continuing : Option RunId} (first : Bears runs continuing middle)
    (second : Bears middle none last) : Bears runs continuing last := by
  generalize none' : (none : Option RunId) = index at second
  induction second with
  | refl => exact first
  | head _ running head unfollowed named known fresh ih => exact .head (ih none') running head unfollowed named known fresh
  | next => cases none'

theorem Bears.after {runs middle last : List RunRow} {continuing : Option RunId} (first : Bears runs none middle)
    (second : Bears middle continuing last) : Bears runs continuing last := by
  induction second with
  | refl => exact first
  | head _ running head unfollowed named known fresh ih => exact .head ih running head unfollowed named known fresh
  | next earlier listed open' running chain hangs unnamed follows _ =>
    exact .next (first.heads earlier) listed open' running chain hangs unnamed follows

end Births

end DurableExecution.Engine

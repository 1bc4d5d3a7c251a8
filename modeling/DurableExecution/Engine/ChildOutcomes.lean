import DurableExecution.Engine.ClosingProtocol

/-
This file is about what a parent hears of its children: each child's outcome is in the log of
its parent once, when the last run of the child's chain has closed.
-/

namespace DurableExecution.Engine

open Workflow (JsValue JsNumber WorkflowEvent Instant)
open Transaction
open Forest (Under)

section Tree

variable {now : Instant} {top runId other : RunId} {event : WorkflowEvent} {db db' : Database}

theorem isOutcomeOf_childOutcomeEvent (childId name : String) (projection : RunProjection) :
    isOutcomeOf childId (childOutcomeEvent name projection) = (name == childId) := by
  unfold childOutcomeEvent
  split <;> rfl

theorem outcomes_same (same : db'.view other = db.view other) (childId : String) : db'.outcomes other childId = db.outcomes other childId :=
  congrArg (fun stored => (stored.map EventRow.event).filter (isOutcomeOf childId)) (congrArg RunView.stored same)

/-- A child that meets its policy hears of no child. -/
theorem MeetsPolicy.outcomes {child : RunRow} (meets : MeetsPolicy now child (db.view other) (db'.view other)) (childId : String) :
    db'.outcomes other childId = db.outcomes other childId := by
  have appended {stored : EventRow} (rows : (db'.view other).stored = (db.view other).stored ++ [stored])
      (plain : isOutcomeOf childId stored.event = false) : db'.outcomes other childId = db.outcomes other childId := by
    change ((db'.view other).stored.map EventRow.event).filter _ = ((db.view other).stored.map EventRow.event).filter _
    rw [rows, List.map_append, List.filter_append]
    simp [plain]
  unfold MeetsPolicy at meets
  split at meets
  · rcases meets with ⟨-, same⟩ | ⟨-, seq, taskId, woken⟩
    · exact outcomes_same same childId
    · exact appended (congrArg RunView.stored woken) rfl
  · obtain ⟨⟨seq, rows⟩, -⟩ := meets
    exact appended rows rfl
  · exact outcomes_same meets childId

/-- A parent that is told hears one outcome, of the child with this name. -/
theorem outcomes_woken {parent : RunRow} {name : String} {projection : RunProjection} {reason : WakeReason} {seq taskId : Nat}
    (woken : db'.view other = (db.view other).woken parent (childOutcomeEvent name projection) reason now seq taskId)
    (childId : String) : db'.outcomes other childId =
      db.outcomes other childId ++ if name = childId then [childOutcomeEvent name projection] else [] := by
  change ((db'.view other).stored.map EventRow.event).filter _ = _
  rw [woken, RunView.woken, List.map_append, List.filter_append]
  congr 1
  rw [List.map_singleton, List.filter_singleton, isOutcomeOf_childOutcomeEvent]
  by_cases same : name = childId
  · simp [same]
  · rw [beq_eq_false_iff_ne.mpr same, cond_false, if_neg same]

theorem Database.parentLink_parentOf {parentRunId : RunId} {childId : String} (link : db.parentLink runId = some (parentRunId, childId)) :
    db.parentOf runId = some parentRunId := by
  unfold Database.parentLink at link
  rw [Database.parentOf]
  cases found : db.run? runId with
  | none => simp [found] at link
  | some row =>
    simp only [found, bind, Option.bind_some, pure] at link
    obtain ⟨head, -, rest⟩ := Option.bind_eq_some_iff.mp link
    obtain ⟨up, hangs, rest⟩ := Option.bind_eq_some_iff.mp rest
    obtain ⟨name, -, same⟩ := Option.bind_eq_some_iff.mp rest
    cases same
    exact hangs

/-- What a closing lets parents hear: the open parent of the closed run, and only of this run. -/
theorem ClosesTree.outcomes (closes : ClosesTree now top event db db') (parentRunId : RunId) (childId : String) :
    db'.outcomes parentRunId childId = db.outcomes parentRunId childId ∨
      ∃ parent closed seq taskId, db.run? parentRunId = some parent ∧ parent.status = .running ∧
        db.parentLink top = some (parentRunId, childId) ∧ db'.run? top = some closed ∧ closed.status ≠ .continuedAsNew ∧
        db'.view parentRunId = (db.view parentRunId).woken parent (childOutcomeEvent childId (projectionFromRow closed))
          (.childClosed childId) now seq taskId ∧ db'.outcomes parentRunId childId = db.outcomes parentRunId childId ++
          [childOutcomeEvent childId (projectionFromRow closed)] := by
  by_cases self : parentRunId = top
  · refine .inl ?_
    rw [Database.outcomes, Database.log, self, closes.stored, Database.outcomes, Database.log]
  · by_cases under : Under db.parentOf top parentRunId
    · have treated := closes.below parentRunId under self
      by_cases meets : ∃ row parent, db.run? parentRunId = some row ∧ row.status = .running ∧ row.parentRunId = some parent ∧
          Falls (db.run? parent) (db'.run? parent)
      · obtain ⟨row, parent, found, running, named, falls⟩ := meets
        exact .inl ((treated.meets row parent found running named falls).outcomes childId)
      · refine .inl (outcomes_same (treated.alone fun row parent found running named falls => meets ?_) childId)
        exact ⟨row, parent, found, running, named, falls⟩
    · by_cases up : db.parentOf top = some parentRunId
      · cases closes.tells parentRunId up with
        | @told parent closed name seq taskId found running link found' final woken =>
          have grown := outcomes_woken woken childId
          by_cases same : name = childId
          · subst same
            rw [if_pos rfl] at grown
            exact .inr ⟨parent, closed, seq, taskId, found, running, link, found', final, woken, grown⟩
          · rw [if_neg same, List.append_nil] at grown
            exact .inl grown
        | goesOn found' status kept => exact .inl (outcomes_same kept childId)
        | deaf shut kept => exact .inl (outcomes_same kept childId)
      · exact .inl (outcomes_same (closes.frame parentRunId under up) childId)

/-- In a closing a row stays as it is, or its run falls. -/
theorem ClosesTree.rows (closes : ClosesTree now top event db db') (other : RunId) :
    db'.run? other = db.run? other ∨ Falls (db.run? other) (db'.run? other) := by
  by_cases self : other = top
  · exact .inr (self ▸ closes.closed.falls)
  · by_cases under : Under db.parentOf top other
    · have treated := closes.below other under self
      by_cases meets : ∃ row parent, db.run? other = some row ∧ row.status = .running ∧ row.parentRunId = some parent ∧
          Falls (db.run? parent) (db'.run? parent)
      · obtain ⟨row, parent, found, running, named, falls⟩ := meets
        have policy := treated.meets row parent found running named falls
        unfold MeetsPolicy at policy
        split at policy
        · rcases policy with ⟨-, same⟩ | ⟨-, seq, taskId, woken⟩
          · exact .inl (congrArg RunView.row same)
          · exact .inl (congrArg RunView.row woken)
        · exact .inr policy.2.falls
        · exact .inl (congrArg RunView.row policy)
      · refine .inl (congrArg RunView.row (treated.alone fun row parent found running named falls => meets ?_))
        exact ⟨row, parent, found, running, named, falls⟩
    · by_cases up : db.parentOf top = some other
      · cases closes.tells other up with
        | told found running link found' final woken => exact .inl (congrArg RunView.row woken)
        | goesOn found' status kept => exact .inl (congrArg RunView.row kept)
        | deaf shut kept => exact .inl (congrArg RunView.row kept)
      · exact .inl (congrArg RunView.row (closes.frame other under up))

theorem RunRow.identity_chain {row row' : RunRow} (same : row'.identity = row.identity) : row'.id = row.id ∧
    row'.firstRunId = row.firstRunId ∧ row'.parentRunId = row.parentRunId ∧ row'.parentChildId = row.parentChildId ∧
      row'.continuedFromRunId = row.continuedFromRunId :=
  ⟨(congrArg RunRow.id same :), (congrArg RunRow.firstRunId same :), (congrArg RunRow.parentRunId same :),
    (congrArg RunRow.parentChildId same :), (congrArg RunRow.continuedFromRunId same :)⟩

/-- The head of a chain whose link to its parent carries this name. -/
theorem Chained.link {continuing : Option RunId} {outcomes : RunId → String → List WorkflowEvent} {parentRunId : RunId}
    {childId : String} {row : RunRow} (chained : Chained continuing db.runs outcomes) (tidy : db.Tidy)
    (found : db.run? runId = some row) (link : db.parentLink runId = some (parentRunId, childId)) :
    ∃ head ∈ db.runs, head.id = row.firstRunId ∧ head.parentRunId = some parentRunId ∧ head.parentChildId = some childId := by
  obtain ⟨head, listed, id, own, parent, named⟩ := chained.head row (Database.run?_mem found)
  have foundHead := Database.mem_run? tidy.distinct listed
  rw [id] at foundHead
  simp only [Database.parentLink, found, foundHead, bind, Option.bind_some] at link
  cases hangs : row.parentRunId with
  | none => simp [hangs] at link
  | some up =>
    simp only [hangs, Option.bind_some] at link
    cases name : row.parentChildId.or head.parentChildId with
    | none => simp [name] at link
    | some chosen =>
      simp only [name, Option.bind_some, pure, Option.some.injEq, Prod.mk.injEq] at link
      obtain ⟨rfl, rfl⟩ := link
      refine ⟨head, listed, id, parent.trans hangs, ?_⟩
      cases own' : row.parentChildId with
      | none => simpa [own'] using name
      | some ownName =>
        have first := chained.headed row (Database.run?_mem found) (by rw [own']; rfl)
        rw [first, Database.run?_id found, found] at foundHead
        cases foundHead
        simpa [own'] using name

/-- A closing leaves chains as they are, up to the runs that fall. -/
theorem Chained.closed {continuing : Option RunId} (tidy : db.Tidy) (chained : Chained continuing db.runs db.outcomes)
    (closes : ClosesTree now top event db db')
    (lag : continuing = none ∨ continuing = some top ∧ isContinuation event = true) : Chained none db'.runs db'.outcomes := by
  obtain ⟨topRow, topRow', foundTop, runningTop, foundTop', closedTop⟩ := closes.closed.row
  change db.run? top = some topRow at foundTop
  change db'.run? top = some topRow' at foundTop'
  have fallenTop : topRow'.status ≠ .running :=
    (isTerminalState_iff _).mp (terminalStateFor_terminal _ _ closedTop.state)
  have distinct' : (db'.runs.map RunRow.id).Nodup := by
    have ids := congrArg (List.map RunRow.id) closes.identities
    simp only [List.map_map] at ids
    change db'.runs.map RunRow.id = db.runs.map RunRow.id at ids
    exact ids ▸ tidy.distinct
  -- the rows before and after, with what happens to their statuses
  have before : ∀ row' ∈ db'.runs, ∃ row ∈ db.runs, row'.identity = row.identity ∧
      (row'.status = .running → row.statusOnce continuing = .running) ∧
      (row.statusOnce continuing = .continuedAsNew → row'.status = .continuedAsNew) := by
    intro row' member
    have found' := Database.mem_run? distinct' member
    obtain ⟨row, found, identity⟩ := Database.run?_same closes.identities.symm found'
    have id := (RunRow.identity_chain identity).1
    refine ⟨row, Database.run?_mem found, identity.symm, fun running => ?_, fun continued => ?_⟩
    · have lags : continuing ≠ some row.id := by
        intro same
        rcases lag with none' | ⟨here, -⟩
        · rw [none'] at same
          cases same
        · rw [here] at same
          rw [← id, ← Option.some.inj same, foundTop'] at found'
          cases found'
          exact fallenTop running
      rw [RunRow.statusOnce, if_neg lags]
      rcases closes.rows row'.id with same | ⟨old, new, -, -, found'', shut⟩
      · rw [found, found'] at same
        cases same
        exact running
      · cases found'.symm.trans found''
        exact absurd running shut
    · unfold RunRow.statusOnce at continued
      split at continued
      · next same =>
          rcases lag with none' | ⟨here, continues⟩
          · rw [none'] at same
            cases same
          · rw [here] at same
            rw [← id, ← Option.some.inj same, foundTop'] at found'
            cases found'
            have state := closedTop.state
            cases event <;> simp_all [isContinuation, terminalStateFor]
      · rcases closes.rows row'.id with same | ⟨old, new, found'', running, -, -⟩
        · rw [found, found'] at same
          cases same
          exact continued
        · cases found.symm.trans found''
          rw [running] at continued
          cases continued
  have after : ∀ row ∈ db.runs, ∃ row' ∈ db'.runs, row'.identity = row.identity := by
    intro row member
    obtain ⟨row', found', identity⟩ := Database.run?_same closes.identities (Database.mem_run? tidy.distinct member)
    exact ⟨row', Database.run?_mem found', identity⟩
  have heardBefore : ∀ parentRunId childId, db.outcomes parentRunId childId ≠ [] → ∃ head ∈ db'.runs,
      head.parentRunId = some parentRunId ∧ head.parentChildId = some childId ∧
        ∀ row ∈ db'.runs, row.firstRunId = head.id → row.status ≠ .running := by
    intro parentRunId childId some'
    obtain ⟨head, listed, parent, child, shut⟩ := chained.heard parentRunId childId some'
    obtain ⟨head', listed', identity⟩ := after head listed
    obtain ⟨id, -, parent', child', -⟩ := RunRow.identity_chain identity
    refine ⟨head', listed', parent'.trans parent, child'.trans child, fun row' member chain running => ?_⟩
    obtain ⟨row, listed'', identity', falls, -⟩ := before row' member
    refine shut row listed'' ?_ (falls running)
    rw [← (RunRow.identity_chain identity').2.1, chain, id]
  -- the run that tells its parent was the open one of its chain
  have telling : ∀ {parentRunId childId} {closed : RunRow}, db.parentLink top = some (parentRunId, childId) →
      db'.run? top = some closed → closed.status ≠ .continuedAsNew → continuing = none := by
    intro parentRunId childId closed link found' final
    rcases lag with none' | ⟨-, continues⟩
    · exact none'
    · cases foundTop'.symm.trans found'
      have state := closedTop.state
      cases event <;> simp_all [isContinuation, terminalStateFor]
  constructor
  · intro row' member
    obtain ⟨row, listed, identity, -⟩ := before row' member
    obtain ⟨head, listed', id, own, parent, named⟩ := chained.head row listed
    obtain ⟨head', listed'', identity'⟩ := after head listed'
    obtain ⟨id', first', parent', child', -⟩ := RunRow.identity_chain identity'
    obtain ⟨-, first, hangs, -⟩ := RunRow.identity_chain identity
    refine ⟨head', listed'', ?_, ?_, ?_, ?_⟩
    · rw [id', id, first]
    · rw [first', own, id']
    · rw [parent', parent, hangs]
    · rw [child', parent', named]
  · intro row' member parentRunId hangs
    obtain ⟨row, listed, identity, -⟩ := before row' member
    obtain ⟨-, -, hangs', -⟩ := RunRow.identity_chain identity
    obtain ⟨parent, listed', id⟩ := chained.known row listed parentRunId (hangs' ▸ hangs)
    obtain ⟨parent', listed'', identity'⟩ := after parent listed'
    exact ⟨parent', listed'', (RunRow.identity_chain identity').1.trans id⟩
  · intro row' member isSome
    obtain ⟨row, listed, identity, -⟩ := before row' member
    obtain ⟨id, first, -, child, -⟩ := RunRow.identity_chain identity
    rw [first, id]
    exact chained.headed row listed (child ▸ isSome)
  · intro one' member two' member' hangs isSome parent child
    obtain ⟨one, listed, identity, -⟩ := before one' member
    obtain ⟨two, listed', identity', -⟩ := before two' member'
    obtain ⟨id, -, parent1, child1, -⟩ := RunRow.identity_chain identity
    obtain ⟨id', -, parent2, child2, -⟩ := RunRow.identity_chain identity'
    rw [id, id']
    rw [parent1] at hangs parent
    rw [child1] at isSome child
    exact chained.named one listed two listed' hangs isSome (parent.trans parent2) (child.trans child2)
  · intro one' member two' member' chain apart running
    obtain ⟨one, listed, identity, falls, -⟩ := before one' member
    obtain ⟨two, listed', identity', -, continued⟩ := before two' member'
    obtain ⟨id, first, -⟩ := RunRow.identity_chain identity
    obtain ⟨id', first', -⟩ := RunRow.identity_chain identity'
    rw [first, first'] at chain
    rw [id, id'] at apart
    exact continued (chained.alone one listed two listed' chain apart (falls running))
  · intro row' member older follows
    obtain ⟨row, listed, identity, -⟩ := before row' member
    obtain ⟨-, -, -, -, follows'⟩ := RunRow.identity_chain identity
    obtain ⟨earlier, listed', id, status⟩ := chained.onward row listed older (follows' ▸ follows)
    obtain ⟨earlier', listed'', identity'⟩ := after earlier listed'
    obtain ⟨old, listed''', identity'', -, continued⟩ := before earlier' listed''
    have same : old = earlier := by
      have ids := (RunRow.identity_chain identity').1.symm.trans (RunRow.identity_chain identity'').1
      exact (List.inj_on_of_nodup_map tidy.distinct listed' listed''' ids).symm
    exact ⟨earlier', listed'', (RunRow.identity_chain identity').1.trans id, continued (same ▸ status)⟩
  · rintro _ ⟨⟩
  · intro parentRunId childId some'
    rcases closes.outcomes parentRunId childId with same | ⟨parent, closed, seq, taskId, -, -, link, found', final, -, -⟩
    · exact heardBefore parentRunId childId (same ▸ some')
    · have none' := telling link found' final
      obtain ⟨head, listed, id, hangs, named⟩ := chained.link tidy foundTop link
      obtain ⟨head', listed', identity⟩ := after head listed
      obtain ⟨id', -, parent', child', -⟩ := RunRow.identity_chain identity
      refine ⟨head', listed', parent'.trans hangs, child'.trans named, fun row' member chain running => ?_⟩
      obtain ⟨row, listed'', identity', falls, -⟩ := before row' member
      obtain ⟨rowId, first, -⟩ := RunRow.identity_chain identity'
      have open' := falls running
      by_cases here : row.id = top
      · have found'' := Database.mem_run? distinct' member
        rw [rowId, here, foundTop'] at found''
        cases found''
        exact fallenTop running
      · have topId := Database.run?_id foundTop
        have sole := chained.alone row listed'' topRow (Database.run?_mem foundTop)
          (by rw [← first, chain, id', id]) (by rw [topId]; exact here) open'
        rw [RunRow.statusOnce, none', if_neg (by simp), runningTop] at sole
        cases sole
  · intro parentRunId childId
    rcases closes.outcomes parentRunId childId with same | ⟨parent, closed, seq, taskId, -, -, link, found', final, -, grown⟩
    · rw [same]
      exact chained.once parentRunId childId
    · have none' := telling link found' final
      have unheard : db.outcomes parentRunId childId = [] := by
        by_contra some'
        obtain ⟨head, listed, hangs, named, shut⟩ := chained.heard parentRunId childId some'
        obtain ⟨head', listed', id, hangs', named'⟩ := chained.link tidy foundTop link
        have same := chained.named head listed head' listed' (by rw [hangs]; rfl) (by rw [named]; rfl)
          (hangs.trans hangs'.symm) (named.trans named'.symm)
        refine shut topRow (Database.run?_mem foundTop) ?_ ?_
        · rw [same, id]
        · rw [RunRow.statusOnce, none', if_neg (by simp), runningTop]
      rw [grown, unheard]
      exact le_rfl

end Tree

/-- A run that is not closed has no closing event in its log. -/
def OpenLogs (db : Database) : Prop :=
  ∀ runId, (∀ row, db.run? runId = some row → row.status = .running) → ∀ event ∈ db.log runId, event.isClosing = false

/-- What holds between operations. -/
structure Database.Reported (db : Database) : Prop where
  tidy : db.Tidy
  chained : Chained none db.runs db.outcomes
  openLogs : OpenLogs db

def Database.isOpen (db : Database) (runId : RunId) : Prop := ∃ row, db.run? runId = some row ∧ row.status = .running

/-- What a parent hears of one of its children in one operation: the outcome of the run that closed
last in the child's chain, while the parent was open and with a task for the parent, or nothing,
and then no run of the chain closed for good while the parent was open. -/
inductive HearsOf (now : Instant) (db db' : Database) (parentRunId : RunId) (childId : String) : Prop
  | heard {runId : RunId} {event : WorkflowEvent} {parent row closed : RunRow} {seq taskId : Nat}
      (link : db.parentLink runId = some (parentRunId, childId)) (gains : Gains db db' runId event)
      (closing : event.isClosing = true) (final : isContinuation event = false)
      (last : ∀ later ∈ db'.runs, later.continuedFromRunId ≠ some runId) (found : db.run? parentRunId = some parent)
      (running : parent.status = .running) (unclosed : ∀ event ∈ db.log parentRunId, event.isClosing = false)
      (before : db.run? runId = some row) (found' : db'.run? runId = some closed) (closed' : row.ClosedBy event closed)
      (woken : db'.view parentRunId = (db.view parentRunId).woken parent
        (childOutcomeEvent childId (projectionFromRow closed)) (.childClosed childId) now seq taskId)
  | silent (same : db'.outcomes parentRunId childId = db.outcomes parentRunId childId)
      (none : ∀ runId event, db.parentLink runId = some (parentRunId, childId) → Gains db db' runId event →
        event.isClosing = true → isContinuation event = true ∨ ¬ (db.isOpen parentRunId ∧ db'.isOpen parentRunId))

section Runs

variable {now : Instant} {db db' : Database} {runId : RunId}

theorem Bears.run? {continuing : Option RunId} (bears : Bears db.runs continuing db'.runs) {row : RunRow}
    (found : db.run? runId = some row) : db'.run? runId = some row := by
  obtain ⟨born, same⟩ := bears.longer
  rw [Database.run?, same, List.find?_append]
  rw [Database.run?] at found
  rw [found]
  rfl

/-- Older runs hang where they did. -/
theorem Bears.parentLink {continuing : Option RunId} {row : RunRow} (bears : Bears db.runs continuing db'.runs)
    (reported : db.Reported) (found : db.run? runId = some row) : db'.parentLink runId = db.parentLink runId := by
  obtain ⟨head, listed, id, -⟩ := reported.chained.head row (Database.run?_mem found)
  have foundHead := Database.mem_run? reported.tidy.distinct listed
  rw [id] at foundHead
  simp only [Database.parentLink, found, bears.run? found, bind, Option.bind_some, foundHead, bears.run? foundHead]

theorem ClosingStep.reported (step : ClosingStep now db db') (reported : db.Reported) (tidy : db'.Tidy) : db'.Reported := by
  cases step with
  | quiet grows calm =>
    have outcomes : db'.outcomes = db.outcomes := funext fun parent => funext fun child => calm.silent parent child
    refine ⟨tidy, outcomes ▸ calm.bears.chained tidy.distinct reported.chained, fun runId open' event listed => ?_⟩
    obtain ⟨more, grown, quiet⟩ := grows runId
    rw [grown] at listed
    rcases List.mem_append.mp listed with old | added
    · exact reported.openLogs runId (fun row found => open' row (calm.bears.run? found)) event old
    · exact quiet event added
  | @closes top events middle prepares tidy' calm closes ends =>
    obtain ⟨any, listed', closing'⟩ := ends
    have tree := closes any listed' closing'
    have outcomes : middle.outcomes = db.outcomes := funext fun parent => funext fun child => calm.silent parent child
    have chained := calm.bears.chained tidy'.distinct reported.chained
    rw [← outcomes] at chained
    refine ⟨tidy, ?_, fun runId open' event listed => ?_⟩
    · by_cases continues : events.any isContinuation = true
      · obtain ⟨event, listed, continuation⟩ := List.any_eq_true.mp continues
        rw [if_pos continues] at chained
        exact chained.closed tidy' (closes event listed (isContinuation_closing event continuation))
          (.inr ⟨rfl, continuation⟩)
      · rw [if_neg continues] at chained
        exact chained.closed tidy' tree (.inl rfl)
    · have stays : ¬ Falls (middle.run? runId) (db'.run? runId) := by
        rintro ⟨row, row', -, -, found', closed⟩
        exact closed (open' row' found')
      have apart : runId ≠ top := fun same => stays (same ▸ tree.closed.falls)
      obtain ⟨more, grown, quiet⟩ := prepares.grows runId apart
      obtain ⟨later, grown', falls⟩ := tree.grows runId
      rw [grown', grown, List.append_assoc] at listed
      have before : ∀ row, db.run? runId = some row → row.status = .running := by
        intro row found
        rcases tree.rows runId with same | fallen
        · exact open' row (same.trans (calm.bears.run? found))
        · exact absurd fallen stays
      rcases List.mem_append.mp listed with old | added
      · exact reported.openLogs runId before event old
      · rcases List.mem_append.mp added with early | late
        · exact quiet event early
        · by_contra closing
          exact stays (falls event late (by simpa using closing)).2.2.2

theorem coreRun_reported (run : CoreRun CoreOp.inTime db) : db.Reported := by
  induction run with
  | empty =>
    refine ⟨emptyDatabase_tidy, ?_, fun _ _ event listed => ?_⟩
    · constructor
      all_goals simp [emptyDatabase, Database.outcomes, Database.log, Database.storedEvents]
    · simp [emptyDatabase, Database.log, Database.storedEvents] at listed
  | step run op now inTime budget ih => exact (CoreOp.run_closes budget ih.tidy inTime).reported ih (op.run_tidy budget ih.tidy)

/-- What a parent hears in one operation. -/
theorem ClosingStep.hearsOf (step : ClosingStep now db db') (reported : db.Reported) (reported' : db'.Reported)
    (parentRunId : RunId) (childId : String) : HearsOf now db db' parentRunId childId := by
  cases step with
  | quiet grows calm =>
    refine .silent (calm.silent parentRunId childId) fun runId event _ ⟨more, grown, listed⟩ closing => ?_
    obtain ⟨more', grown', quiet⟩ := grows runId
    have same := List.append_cancel_left (grown.symm.trans grown')
    rw [quiet event (same ▸ listed)] at closing
    cases closing
  | @closes top events middle prepares tidy calm closes ends =>
    obtain ⟨any, listed', closing'⟩ := ends
    have tree := closes any listed' closing'
    obtain ⟨topRow, topRow', foundTop, -, foundTop', by'⟩ := tree.closed.row
    change middle.run? top = some topRow at foundTop
    change db'.run? top = some topRow' at foundTop'
    rw [prepares.row] at foundTop
    -- the parent of a run is an older run, so the operation has not touched it before the closing
    have parent {runId : RunId} (link : db.parentLink runId = some (parentRunId, childId)) :
        ∃ row, db.run? runId = some row ∧ middle.run? runId = some row ∧ middle.parentOf runId = some parentRunId ∧
          ∃ parent, db.run? parentRunId = some parent ∧ middle.run? parentRunId = some parent := by
      have hangs := Database.parentLink_parentOf link
      obtain ⟨row, found, named⟩ := Option.bind_eq_some_iff.mp hangs
      obtain ⟨parent, member, id⟩ := reported.chained.known row (Database.run?_mem found) parentRunId named
      have found' := Database.mem_run? reported.tidy.distinct member
      rw [id] at found'
      have kept := calm.bears.run? found
      refine ⟨row, found, kept, ?_, parent, found', calm.bears.run? found'⟩
      rw [Database.parentOf, kept]
      exact named
    rcases tree.outcomes parentRunId childId with
      same | ⟨parentRow, closed, seq, taskId, foundParent, running, link, found', final, woken, -⟩
    · refine .silent (same.trans (calm.silent parentRunId childId)) fun runId event link gains closing => ?_
      obtain ⟨row, found, kept, hangs, parentRow, foundParent, keptParent⟩ := parent link
      by_contra neither
      rw [not_or, not_not] at neither
      obtain ⟨final, ⟨open', openFound, running⟩, ⟨open'', openFound', running'⟩⟩ := neither
      obtain ⟨more, grown, listed⟩ := gains
      obtain ⟨later, grown', falls⟩ := tree.grows runId
      by_cases self : runId = top
      · subst self
        have together := List.append_cancel_left (grown.symm.trans (grown'.trans (by rw [prepares.log, List.append_assoc])))
        rw [together] at listed
        rcases List.mem_append.mp listed with early | late
        · have tree := closes event early closing
          obtain ⟨_, row', _, _, foundRow', by'⟩ := tree.closed.row
          change db'.run? runId = some row' at foundRow'
          cases tree.tells parentRunId hangs with
          | told _ _ link' _ _ woken =>
            rw [calm.bears.parentLink reported found, link] at link'
            cases link'
            have grown'' := outcomes_woken woken childId
            rw [same, if_pos rfl] at grown''
            exact absurd grown'' (by simp)
          | goesOn found' status _ =>
            cases foundRow'.symm.trans found'
            have state := by'.state
            rw [status] at state
            cases event <;> simp_all [terminalStateFor, isContinuation]
          | deaf shut _ =>
            cases openFound.symm.trans foundParent
            exact shut _ keptParent running
        · exact absurd rfl (falls event late closing).1
      · obtain ⟨early, grown'', quiet⟩ := prepares.grows runId self
        have together := List.append_cancel_left (grown.symm.trans (grown'.trans (by rw [grown'', List.append_assoc])))
        rw [together] at listed
        rcases List.mem_append.mp listed with member | late
        · rw [quiet event member] at closing
          cases closing
        · obtain ⟨-, -, -, fallen⟩ := falls event late closing
          obtain ⟨-, _, up, -, hangs', ⟨_, fallenRow, -, -, foundFallen, shut⟩, -⟩ := tree.brought self fallen
          cases hangs.symm.trans hangs'
          cases openFound'.symm.trans foundFallen
          exact shut running'
    · have link' : db.parentLink top = some (parentRunId, childId) :=
        (calm.bears.parentLink reported foundTop).symm.trans link
      obtain ⟨row, found, -, hangs, parentRow', foundParent', keptParent⟩ := parent link'
      cases foundParent.symm.trans keptParent
      cases foundTop'.symm.trans found'
      have apart : parentRunId ≠ top := (tidy.ordered _ _ hangs).ne
      rw [prepares.others parentRunId apart (by rw [foundParent']; rfl)] at woken
      refine .heard link' ⟨events, ?_, listed'⟩ closing' ?_ (fun later member follows => ?_) foundParent' running
        (reported.openLogs parentRunId fun row same => ?_) foundTop found' by' woken
      · rw [Database.log, tree.stored, ← Database.log, prepares.log]
      · have state := by'.state
        cases continues : isContinuation any with
        | false => rfl
        | true =>
          cases any <;> simp_all [terminalStateFor, isContinuation]
      · obtain ⟨before, listed, id, status⟩ := reported'.chained.onward later member top follows
        have foundBefore := Database.mem_run? reported'.tidy.distinct listed
        rw [id, found'] at foundBefore
        cases foundBefore
        exact final status
      · cases foundParent'.symm.trans same
        exact running

end Runs

/-- In every state that the operations reach, as long as no caller enforces a timeout on a run that
is overdue: a parent's log has one outcome of a child at most, and every operation lets the parent
hear of the child just when it closes the last run of the child's chain while the parent is open. -/
theorem child_outcomes {db : Database} (run : CoreRun CoreOp.inTime db) (parentRunId : RunId) (childId : String) :
    (db.outcomes parentRunId childId).length ≤ 1 ∧ ∀ (op : CoreOp) (now : Instant) (budget : Option Nat),
      op.inTime now db → HearsOf now db (op.run now budget db) parentRunId childId := by
  have reported := coreRun_reported run
  refine ⟨reported.chained.once parentRunId childId, fun op now budget inTime => ?_⟩
  have reported' : (op.run now budget db).Reported := coreRun_reported (run.step op now inTime budget)
  exact (CoreOp.run_closes budget reported.tidy inTime).hearsOf reported reported' parentRunId childId

/-- A run is started, and its first decision starts a child. -/
def familyDatabase : Database :=
  (CoreOp.engine (.recordWorkflowTaskResult (some "main") 0 "first" 1
    [.startChild "child-0" "payment" .null .abandon none none])).run .epoch none openRunDatabase

theorem child_outcomes_family : (familyDatabase.outcomes 0 "child-0").length ≤ 1 ∧
    HearsOf .epoch familyDatabase ((CoreOp.engine (.recordWorkflowTaskResult (some "main") 2 "first" 1
      [.completeRun (.string "paid")])).run .epoch none familyDatabase) 0 "child-0" := by
  have run : CoreRun CoreOp.inTime familyDatabase := .step (.step .empty _ .epoch trivial none) _ .epoch trivial none
  exact ⟨(child_outcomes run 0 "child-0").1, (child_outcomes run 0 "child-0").2 _ .epoch none trivial⟩

/-- A timeout that a caller enforces closes the child's log, and its open parent hears nothing. -/
theorem child_unheard : ¬ ∀ (db : Database), CoreRun (fun _ _ _ => True) db → ∀ (parentRunId : RunId) (childId : String),
    (db.outcomes parentRunId childId).length ≤ 1 ∧ ∀ (op : CoreOp) (now : Instant) (budget : Option Nat),
      HearsOf now db (op.run now budget db) parentRunId childId := by
  intro all
  have hears := (all familyDatabase (.step (.step .empty _ .epoch trivial none) _ .epoch trivial none) 0 "child-0").2
    (.enforceWorkflowTimeout 2 (.finite 1000)) overdue none
  have unheard : ((CoreOp.enforceWorkflowTimeout 2 (.finite 1000)).run overdue none familyDatabase).outcomes 0 "child-0" = [] := by
    with_unfolding_all rfl
  cases hears with
  | heard link gains closing final last found running unclosed before found' closed woken =>
    have grown := outcomes_woken woken "child-0"
    rw [unheard, if_pos rfl] at grown
    exact absurd grown (by simp)
  | silent same none' =>
    have gains : Gains familyDatabase ((CoreOp.enforceWorkflowTimeout 2 (.finite 1000)).run overdue none familyDatabase) 2
        (.runTimedOut none) := ⟨[.runTimedOut none], by with_unfolding_all rfl, List.mem_singleton_self _⟩
    have open' : ∀ db : Database, (db.run? 0).map RunRow.status = some .running → db.isOpen 0 := by
      intro db status
      obtain ⟨row, found, running⟩ := Option.map_eq_some_iff.mp status
      exact ⟨row, found, running⟩
    rcases none' 2 _ rfl gains rfl with continued | shut
    · cases continued
    · exact shut ⟨open' _ rfl, open' _ (by with_unfolding_all rfl)⟩

end DurableExecution.Engine

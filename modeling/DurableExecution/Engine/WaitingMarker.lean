import DurableExecution.Engine.TaskHandler
import DurableExecution.Engine.WorkflowTimeout

/-
This file proves when the waiting marker of a run follows its latest decision: handlers
record and mark in separate updates, between the operations of the engine.
-/

namespace DurableExecution.Engine

open Workflow (JsValue WorkflowEvent WorkflowCommand commandToEvent Instant)
open Transaction

/-- How far the handler of a recorded decision has come with its mark. A handler is lost when its worker dies or
one of its queries fails after the recording; the redelivered task finds the decision recorded and marks nothing. -/
inductive MarkPhase where
  | recorded
  | computed (waitingOn : Option WaitingOn)
  | marked (waitingOn : Option WaitingOn)
  | lost

/-- A recorded decision with the events its marker is computed from. -/
structure RecordedDecision where
  runId : RunId
  suspended : Bool
  events : List WorkflowEvent
  recordedCount : Nat
  phase : MarkPhase

/-- The database and the decisions that were recorded so far, oldest first. -/
structure MarkSystem where
  db : Database
  decisions : List RecordedDecision

/-- A handler records the decision it made from the history it read. -/
def MarkSystem.record (system : MarkSystem) (options : RecorderOptions) (runId : RunId) (taskKey : String)
    (expectedSeq : Nat) (history : List WorkflowEvent) (suspended : Bool) (commands : List WorkflowCommand)
    (budget : Option Nat) : MarkSystem :=
  let outcome := recordWorkflowTaskResult options (decisionInput runId taskKey expectedSeq commands) budget system.db
  let events := commands.map commandToEvent
  match outcome.1 with
  | .ok ⟨true, _, _⟩ =>
    ⟨outcome.2, system.decisions ++ [⟨runId, suspended, history ++ events, events.length, .recorded⟩]⟩
  | _ => { system with db := outcome.2 }

/-- A handler reads what the marker of its decision depends on. -/
def MarkSystem.compute (system : MarkSystem) (index : Nat) (decision : RecordedDecision) : MarkSystem :=
  let waitingOn := if decision.suspended then waitingOnFor system.db decision.runId decision.events else none
  { system with decisions := system.decisions.set index { decision with phase := .computed waitingOn } }

/-- A handler marks its run. -/
def MarkSystem.mark (system : MarkSystem) (index : Nat) (decision : RecordedDecision) (waitingOn : Option WaitingOn) :
    MarkSystem :=
  ⟨system.db.markRunWaiting decision.runId waitingOn (decide (0 < decision.recordedCount)),
    system.decisions.set index { decision with phase := .marked waitingOn }⟩

/-- A handler is lost before it has marked its run. -/
def MarkSystem.lose (system : MarkSystem) (index : Nat) (decision : RecordedDecision) : MarkSystem :=
  { system with decisions := system.decisions.set index { decision with phase := .lost } }

def MarkPhase.isMarked : MarkPhase → Bool
  | .marked _ => true
  | _ => false

/-- The handler is between its recording and its mark. -/
def MarkPhase.isPending : MarkPhase → Bool
  | .recorded | .computed _ => true
  | .marked _ | .lost => false

/-- No later decision of this run has been marked. -/
def MarkSystem.InOrder (system : MarkSystem) (index : Nat) (runId : RunId) : Prop :=
  ∀ (later : Nat) (decision : RecordedDecision), index < later → system.decisions[later]? = some decision →
    decision.runId = runId → decision.phase.isMarked = false

/-- A later decision of this run has been recorded. -/
def MarkSystem.Superseded (system : MarkSystem) (index : Nat) (runId : RunId) : Prop :=
  ∃ (later : Nat) (decision : RecordedDecision), index < later ∧ system.decisions[later]? = some decision ∧ decision.runId = runId

/-- Handlers record, compute, mark and are lost in any order, between any operations that write to the logs. Each mark meets
a condition, and so does each loss. -/
inductive MarkRun (meets loses : MarkSystem → Nat → RunId → Prop) : MarkSystem → Prop
  | empty : MarkRun meets loses ⟨emptyDatabase, []⟩
  | operated {system : MarkSystem} (run : MarkRun meets loses system) (op : CoreOp) (now : Instant) (budget : Option Nat) :
      MarkRun meets loses { system with db := op.run now budget system.db }
  | recorded {system : MarkSystem} (run : MarkRun meets loses system) (options : RecorderOptions) (runId : RunId)
      (taskKey : String) (expectedSeq : Nat) (history : List WorkflowEvent) (suspended : Bool)
      (commands : List WorkflowCommand) (budget : Option Nat) :
      MarkRun meets loses (system.record options runId taskKey expectedSeq history suspended commands budget)
  | computed {system : MarkSystem} (run : MarkRun meets loses system) (index : Nat) (decision : RecordedDecision)
      (listed : system.decisions[index]? = some decision) (phase : decision.phase = .recorded) :
      MarkRun meets loses (system.compute index decision)
  | marked {system : MarkSystem} (run : MarkRun meets loses system) (index : Nat) (decision : RecordedDecision)
      (waitingOn : Option WaitingOn) (listed : system.decisions[index]? = some decision)
      (phase : decision.phase = .computed waitingOn) (met : meets system index decision.runId) :
      MarkRun meets loses (system.mark index decision waitingOn)
  | lost {system : MarkSystem} (run : MarkRun meets loses system) (index : Nat) (decision : RecordedDecision)
      (listed : system.decisions[index]? = some decision) (phase : decision.phase.isPending = true)
      (met : loses system index decision.runId) : MarkRun meets loses (system.lose index decision)

section Marks

/-- Every run keeps its marker. -/
def KeepsMarks (db db' : Database) : Prop :=
  ∀ runId row, db.run? runId = some row → ∃ row', db'.run? runId = some row' ∧ row'.waitingOn = row.waitingOn

theorem KeepsMarks.refl (db : Database) : KeepsMarks db db := fun _ row found => ⟨row, found, rfl⟩

theorem KeepsMarks.trans (one two three : Database) (first : KeepsMarks one two) (second : KeepsMarks two three) :
    KeepsMarks one three := by
  intro runId row found
  obtain ⟨row', found', same⟩ := first runId row found
  obtain ⟨row'', found'', same'⟩ := second runId row' found'
  exact ⟨row'', found'', same'.trans same⟩

theorem KeepsMarks.ofRuns {db db' : Database} (runs : db'.runs = db.runs) : KeepsMarks db db' := by
  intro runId row found
  refine ⟨row, ?_, rfl⟩
  rw [Database.run?, runs]
  exact found

theorem KeepsMarks.updateRun (db : Database) (runId : RunId) {change : RunRow → RunRow}
    (kept : ∀ row, (change row).id = row.id ∧ (change row).waitingOn = row.waitingOn) : KeepsMarks db (db.updateRun runId change) := by
  intro other row found
  rw [Database.updateRun_run? change fun row => (kept row).1, found]
  split
  · exact ⟨change row, rfl, (kept row).2⟩
  · exact ⟨row, rfl, rfl⟩

theorem KeepsMarks.addRun (db : Database) (row : RunId → RunRow) : KeepsMarks db (db.addRun row) := by
  intro other row' found
  refine ⟨row', ?_, rfl⟩
  change (db.runs ++ [row db.nextId]).find? _ = _
  rw [List.find?_append, show db.runs.find? (fun row => row.id == other) = some row' from found]
  rfl

theorem keepsMarks_whole : WholeFrame KeepsMarks where
  control _ _ := trivial
  refl := .refl
  trans := .trans
  appended _ _ _ := .ofRuns rfl
  projected db runId _ _ _ _ := .updateRun db runId fun _ => ⟨rfl, rfl⟩
  limited db runId _ _ := .updateRun db runId fun _ => ⟨rfl, rfl⟩
  opened db row _ := .addRun db row
  tasked _ _ _ _ _ _ := .ofRuns rfl
  withdrawn _ _ := .ofRuns rfl
  timed _ _ := .ofRuns rfl
  decided _ _ := .ofRuns rfl
  resulted _ _ := .ofRuns rfl
  attempted _ _ := .ofRuns rfl

/-- A recorded decision has a run. -/
theorem recordWorkflowTaskResultOn_known (options : RecorderOptions) (input : RecordWorkflowTaskResultInput) :
    Ensures (fun _ => True) (recordWorkflowTaskResultOn options input) fun answer db =>
      answer.recorded = true → (db.run? input.runId).isSome = true := by
  have anything {A : Type} (work : Tx A) : Ensures (fun _ => True) work fun _ _ => True := fun _ _ _ _ _ => trivial
  refine .bind (anything _) fun row => .bind (anything _) fun _ => .bind (anything _) fun previous => ?_
  cases previous with
  | some previous => exact .pure fun _ _ => nofun
  | none =>
    dsimp only
    split
    · refine .bind (anything _) fun stored => .bind (anything _) fun _ => .bind (anything _) fun _ => ?_
      refine .through (fun _ db => (db.run? input.runId).isSome = true) (.statement ?_) fun _ => ?_
      · intro db answer db' _ inserted
        split at inserted
        · next allowed =>
            cases inserted
            exact ((Bool.and_eq_true _ _).mp allowed).1
        · cases inserted
      · exact .pure fun _ known _ => known
    · exact .pure fun _ _ => nofun

end Marks

section Markers

/-- What holds between the markers of the runs and the decisions whose handlers have marked. -/
structure MarkSystem.Follows (system : MarkSystem) : Prop where
  known : ∀ (index : Nat) (decision : RecordedDecision), system.decisions[index]? = some decision →
    (system.db.run? decision.runId).isSome = true
  latest : ∀ (index : Nat) (decision : RecordedDecision) (waitingOn : Option WaitingOn),
    system.decisions[index]? = some decision → decision.phase = .marked waitingOn →
    system.InOrder index decision.runId →
    ∃ row, system.db.run? decision.runId = some row ∧ row.waitingOn = waitingOn
  own : ∀ (index : Nat) (decision : RecordedDecision) (waitingOn : Option WaitingOn),
    system.decisions[index]? = some decision →
    decision.phase = .computed waitingOn ∨ decision.phase = .marked waitingOn →
    (waitingOn = some .external ↔ decision.suspended = true ∧ openStepIds decision.events = [])

variable {system : MarkSystem}

/-- A decision that waits for one of its own steps is not computed as waiting for the outside. -/
theorem waitingOnFor_external (db : Database) (runId : RunId) (events : List WorkflowEvent) :
    waitingOnFor db runId events = some .external ↔ openStepIds events = [] := by
  unfold waitingOnFor
  dsimp only
  split
  · next none' => simpa using none'
  · next some' =>
      constructor
      · intro external
        split at external <;> cases external
      · intro none'
        exact absurd (by rw [none']; rfl) some'

theorem MarkSystem.Follows.operated (follows : system.Follows) {db : Database} (keeps : KeepsMarks system.db db) :
    ({ system with db := db } : MarkSystem).Follows where
  known index decision listed := by
    obtain ⟨row, found⟩ := Option.isSome_iff_exists.mp (follows.known index decision listed)
    obtain ⟨row', found', -⟩ := keeps _ row found
    exact Option.isSome_iff_exists.mpr ⟨row', found'⟩
  latest index decision waitingOn listed marked inOrder := by
    obtain ⟨row, found, same⟩ := follows.latest index decision waitingOn listed marked inOrder
    obtain ⟨row', found', same'⟩ := keeps _ row found
    exact ⟨row', found', same'.trans same⟩
  own := follows.own

theorem MarkSystem.Follows.listed (follows : system.Follows) {decision : RecordedDecision}
    (known : (system.db.run? decision.runId).isSome = true) (phase : decision.phase = .recorded) :
    ({ system with decisions := system.decisions ++ [decision] } : MarkSystem).Follows := by
  have old (index : Nat) (other : RecordedDecision)
      (listed : (system.decisions ++ [decision])[index]? = some other) :
      system.decisions[index]? = some other ∨ other = decision := by
    by_cases inside : index < system.decisions.length
    · left
      rwa [List.getElem?_append_left inside] at listed
    · right
      rw [List.getElem?_append_right (by omega)] at listed
      exact List.mem_singleton.mp (List.mem_of_getElem? listed)
  refine ⟨fun index other listed => ?_, fun index other waitingOn listed marked inOrder => ?_,
    fun index other waitingOn listed phase' => ?_⟩
  · rcases old index other listed with listed | rfl
    · exact follows.known index other listed
    · exact known
  · rcases old index other listed with listed | rfl
    · refine follows.latest index other waitingOn listed marked fun later third after listed' => ?_
      exact inOrder later third after (List.getElem?_append_left (List.getElem?_eq_some_iff.mp listed').1 ▸ listed')
    · rw [phase] at marked
      cases marked
  · rcases old index other listed with listed | rfl
    · exact follows.own index other waitingOn listed phase'
    · rw [phase] at phase'
      rcases phase' with phase' | phase' <;> cases phase'

theorem MarkSystem.Follows.record (follows : system.Follows) (options : RecorderOptions) (runId : RunId)
    (taskKey : String) (expectedSeq : Nat) (history : List WorkflowEvent) (suspended : Bool)
    (commands : List WorkflowCommand) (budget : Option Nat) :
    (system.record options runId taskKey expectedSeq history suspended commands budget).Follows := by
  have keeps : KeepsMarks system.db (withTransaction (recordWorkflowTaskResultOn options
      (decisionInput runId taskKey expectedSeq commands)) budget system.db).2 :=
    withTransaction_keeps .refl
      (recordWorkflowTaskResultOn_kept keepsMarks_whole.toFrame _ _ fun _ _ => trivial) budget system.db
  have known := withTransaction_cases (recordWorkflowTaskResultOn_known options
    (decisionInput runId taskKey expectedSeq commands)) budget system.db trivial
  unfold MarkSystem.record recordWorkflowTaskResult
  dsimp only
  split
  · next first last answered =>
      refine (follows.operated keeps).listed ?_ rfl
      rcases known with ⟨fault, failed⟩ | ⟨answer, db, done, known⟩
      · rw [failed] at answered
        cases answered
      · rw [done] at answered ⊢
        cases answered
        exact known rfl
  · exact follows.operated keeps

/-- The phase of one decision changes, and neither its run nor whether it is marked. -/
theorem MarkSystem.Follows.phased (follows : system.Follows) {index : Nat} {decision : RecordedDecision}
    (listed : system.decisions[index]? = some decision) (unmarked : decision.phase.isMarked = false) {phase : MarkPhase}
    (still : phase.isMarked = false)
    (own : ∀ waitingOn, phase = .computed waitingOn →
      (waitingOn = some .external ↔ decision.suspended = true ∧ openStepIds decision.events = [])) :
    ({ system with decisions := system.decisions.set index { decision with phase := phase } } : MarkSystem).Follows := by
  refine ⟨fun other third listed' => ?_, fun other third waitingOn' listed' marked inOrder => ?_,
    fun other third waitingOn' listed' phase => ?_⟩
  all_goals rcases listed_of_set listed' with ⟨rfl, rfl⟩ | ⟨elsewhere, listed'⟩
  · exact follows.known index decision listed
  · exact follows.known other third listed'
  · rw [show phase = .marked waitingOn' from marked] at still
    cases still
  · refine follows.latest other third waitingOn' listed' marked fun later fourth after listed'' same => ?_
    by_cases here : index = later
    · subst here
      rw [listed] at listed''
      cases listed''
      exact unmarked
    · refine inOrder later fourth after ?_ same
      dsimp only
      rw [List.getElem?_set_ne here]
      exact listed''
  · rcases phase with computed | marked
    · exact own waitingOn' computed
    · rw [show phase = .marked waitingOn' from marked] at still
      cases still
  · exact follows.own other third waitingOn' listed' phase

theorem MarkSystem.Follows.compute (follows : system.Follows) {index : Nat} {decision : RecordedDecision}
    (listed : system.decisions[index]? = some decision) (phase : decision.phase = .recorded) : (system.compute index decision).Follows := by
  refine follows.phased listed (by rw [phase]; rfl) rfl ?_
  rintro _ ⟨⟩
  split
  · next suspended => rw [waitingOnFor_external, and_iff_right suspended]
  · next going => simp [going]

/-- A mark in the order of the decisions is the marker of the latest one that is marked. -/
theorem MarkSystem.Follows.mark (follows : system.Follows) {index : Nat} {decision : RecordedDecision}
    {waitingOn : Option WaitingOn} (listed : system.decisions[index]? = some decision)
    (phase : decision.phase = .computed waitingOn) (inOrder : system.InOrder index decision.runId) :
    (system.mark index decision waitingOn).Follows := by
  have inside := (List.getElem?_eq_some_iff.mp listed).1
  have updated (runId : RunId) : (system.mark index decision waitingOn).db.run? runId =
      if runId = decision.runId then (system.db.run? runId).map fun row => { row with
        waitingOn := waitingOn
        recoveryCount := if decide (0 < decision.recordedCount) then 0 else row.recoveryCount }
      else system.db.run? runId := Database.updateRun_run? _ fun _ => rfl
  refine ⟨fun other third listed' => ?_, fun other third waitingOn' listed' marked inOrder' => ?_,
    fun other third waitingOn' listed' phase' => ?_⟩
  all_goals rcases listed_of_set listed' with ⟨rfl, rfl⟩ | ⟨elsewhere, listed'⟩
  · rw [updated, if_pos rfl, Option.isSome_map]
    exact follows.known index decision listed
  · rw [updated]
    split
    · rw [Option.isSome_map]
      exact follows.known other third listed'
    · exact follows.known other third listed'
  · cases marked
    obtain ⟨row, found⟩ := Option.isSome_iff_exists.mp (follows.known index decision listed)
    rw [updated, if_pos rfl, found]
    exact ⟨_, rfl, rfl⟩
  · have different : third.runId ≠ decision.runId := by
      intro same
      rcases Nat.lt_or_gt_of_ne elsewhere with after | before
      · have unmarked := inOrder other third after listed' same
        rw [marked] at unmarked
        cases unmarked
      · have unmarked := inOrder' index { decision with phase := .marked waitingOn } before
          (by rw [MarkSystem.mark, List.getElem?_set_self inside]) same.symm
        cases unmarked
    have before : system.InOrder other third.runId := by
      intro later fourth after listed'' same
      by_cases here : index = later
      · subst here
        rw [listed] at listed''
        cases listed''
        exact absurd same.symm different
      · refine inOrder' later fourth after ?_ same
        dsimp only [MarkSystem.mark]
        rw [List.getElem?_set_ne here]
        exact listed''
    obtain ⟨row, found, same⟩ := follows.latest other third waitingOn' listed' marked before
    rw [updated, if_neg different]
    exact ⟨row, found, same⟩
  · rcases phase' with phase' | phase' <;> cases phase'
    exact follows.own index decision waitingOn listed (.inl phase)
  · exact follows.own other third waitingOn' listed' phase'

theorem MarkPhase.isPending_unmarked {phase : MarkPhase} (pending : phase.isPending = true) : phase.isMarked = false := by
  cases phase with
  | recorded | computed | lost => rfl
  | marked waitingOn => cases pending

theorem markRun_follows {loses : MarkSystem → Nat → RunId → Prop} (run : MarkRun MarkSystem.InOrder loses system) : system.Follows := by
  induction run with
  | empty => constructor <;> simp
  | operated run op now budget ih =>
    refine ih.operated (withTransaction_keeps .refl ?_ budget _)
    cases op with
    | engine op => exact op.work_whole keepsMarks_whole
    | enforceWorkflowTimeout runId timeoutMs => exact (enforceWorkflowTimeoutOn_kept keepsMarks_whole.toFrame runId timeoutMs).discard
  | recorded run options runId taskKey expectedSeq history suspended commands budget ih =>
    exact ih.record options runId taskKey expectedSeq history suspended commands budget
  | computed run index decision listed phase ih => exact ih.compute listed phase
  | marked run index decision waitingOn listed phase inOrder ih => exact ih.mark listed phase inOrder
  | lost run index decision listed phase met ih => exact ih.phased listed (MarkPhase.isPending_unmarked phase) rfl (by rintro _ ⟨⟩)

/-- Decisions are only added, and each keeps its run. -/
def Onward (before after : List RecordedDecision) : Prop :=
  ∀ (index : Nat) (decision : RecordedDecision), before[index]? = some decision →
    ∃ later, after[index]? = some later ∧ later.runId = decision.runId

theorem Onward.set {decisions : List RecordedDecision} {index : Nat} {decision : RecordedDecision}
    (listed : decisions[index]? = some decision) (phase : MarkPhase) :
    Onward decisions (decisions.set index { decision with phase := phase }) := by
  intro other third listed'
  by_cases here : index = other
  · subst here
    rw [listed] at listed'
    cases listed'
    exact ⟨_, List.getElem?_set_self (List.getElem?_eq_some_iff.mp listed).1, rfl⟩
  · exact ⟨third, by rw [List.getElem?_set_ne here]; exact listed', rfl⟩

theorem MarkSystem.Superseded.onward {other : MarkSystem} {index : Nat} {runId : RunId} (superseded : system.Superseded index runId)
    (onward : Onward system.decisions other.decisions) : other.Superseded index runId := by
  obtain ⟨later, decision, after, listed, same⟩ := superseded
  obtain ⟨grown, listed', same'⟩ := onward later decision listed
  exact ⟨later, grown, after, listed', same'.trans same⟩

/-- A decision whose handler was lost has a later one of its run behind it. -/
theorem markRun_superseded {meets : MarkSystem → Nat → RunId → Prop} (run : MarkRun meets MarkSystem.Superseded system)
    (index : Nat) (decision : RecordedDecision) (listed : system.decisions[index]? = some decision)
    (lost : decision.phase = .lost) : system.Superseded index decision.runId := by
  induction run generalizing index decision with
  | empty => cases listed
  | operated run op now budget ih => exact ih index decision listed lost
  | @recorded system run options runId taskKey expectedSeq history suspended commands budget ih =>
    unfold MarkSystem.record at listed ⊢
    dsimp only at listed ⊢
    split at listed
    · have onward : Onward system.decisions (system.decisions ++ [⟨runId, suspended,
          history ++ commands.map commandToEvent, (commands.map commandToEvent).length, .recorded⟩]) :=
        fun other third listed' => ⟨third, List.getElem?_append_left (List.getElem?_eq_some_iff.mp listed').1 ▸ listed', rfl⟩
      by_cases inside : index < system.decisions.length
      · rw [List.getElem?_append_left inside] at listed
        exact (ih index decision listed lost).onward onward
      · rw [List.getElem?_append_right (by omega)] at listed
        rw [List.mem_singleton.mp (List.mem_of_getElem? listed)] at lost
        cases lost
    · exact ih index decision listed lost
  | @computed system run other earlier listed' phase ih =>
    rcases listed_of_set listed with ⟨rfl, rfl⟩ | ⟨elsewhere, listed''⟩
    · cases lost
    · exact (ih index decision listed'' lost).onward (.set listed' _)
  | @marked system run other earlier waitingOn listed' phase met ih =>
    rcases listed_of_set listed with ⟨rfl, rfl⟩ | ⟨elsewhere, listed''⟩
    · cases lost
    · exact (ih index decision listed'' lost).onward (.set listed' _)
  | @lost system run other earlier listed' phase met ih =>
    rcases listed_of_set listed with ⟨rfl, rfl⟩ | ⟨elsewhere, listed''⟩
    · exact met.onward (.set listed' _)
    · exact (ih index decision listed'' lost).onward (.set listed' _)

/-- Where the marks of each run are stored in the order of its decisions, and no handler is lost whose decision is the
latest one, a run without a handler between its recording and its mark has the marker of its last decision, which
is the outside only when that decision waits for none of its own steps. -/
theorem waitingMarker_follows (run : MarkRun MarkSystem.InOrder MarkSystem.Superseded system) (runId : RunId)
    (settled : ∀ decision ∈ system.decisions, decision.runId = runId → decision.phase.isPending = false)
    (index : Nat) (decision : RecordedDecision) (listed : system.decisions[index]? = some decision) (own : decision.runId = runId)
    (last : ∀ (later : Nat) (other : RecordedDecision), index < later → system.decisions[later]? = some other → other.runId ≠ runId) :
    ∃ row, system.db.run? runId = some row ∧ decision.phase = .marked row.waitingOn ∧
      (row.waitingOn = some .external ↔ decision.suspended = true ∧ openStepIds decision.events = []) := by
  have follows := markRun_follows run
  have settledHere := settled decision (List.mem_of_getElem? listed) own
  cases phase : decision.phase with
  | recorded | computed =>
    rw [phase] at settledHere
    cases settledHere
  | lost =>
    obtain ⟨later, other, after, listed', same⟩ := markRun_superseded run index decision listed phase
    exact absurd (same.trans own) (last later other after listed')
  | marked waitingOn =>
    obtain ⟨row, found, same⟩ := follows.latest index decision waitingOn listed phase
      fun later other after listed' same => absurd (same.trans own) (last later other after listed')
    rw [own] at found
    refine ⟨row, found, by rw [same], ?_⟩
    rw [same]
    exact follows.own index decision waitingOn listed (.inr phase)

end Markers

/-- A handler records the decision of a new run to wait for a signal. -/
def signalAwaited : MarkSystem :=
  (MarkSystem.mk ((EngineOp.startRun 0 "main" ⟨"order", .null, none, none, none⟩).run .epoch none emptyDatabase) []).record
    ⟨some "main", .epoch⟩ 0 "task-1" 1 [.runStarted "order" .null] true [] none

/-- The signal arrives, and another handler records the decision to schedule a step. -/
def stepAwaited : MarkSystem :=
  ({ signalAwaited with db := (EngineOp.signalRun 0 "go" .null).run .epoch none signalAwaited.db } : MarkSystem).record
    ⟨some "main", .epoch⟩ 0 "task-2" 2 [.runStarted "order" .null, .signalReceived "go" .null] true
    [.scheduleStep "step-1" "ship" .null] none

theorem signalAwaited_run (meets loses : MarkSystem → Nat → RunId → Prop) : MarkRun meets loses signalAwaited :=
  .recorded (.operated .empty (.engine (.startRun 0 "main" ⟨"order", .null, none, none, none⟩)) .epoch none) _ _ _ _ _ _ _ none

theorem stepAwaited_run (meets loses : MarkSystem → Nat → RunId → Prop) : MarkRun meets loses stepAwaited :=
  .recorded (.operated (signalAwaited_run meets loses) (.engine (.signalRun 0 "go" .null)) .epoch none) _ _ _ _ _ _ _ none

/-- One decision is computed and marked. -/
def MarkSystem.settle (system : MarkSystem) (index : Nat) (decision : RecordedDecision)
    (waitingOn : Option WaitingOn) : MarkSystem :=
  (system.compute index decision).mark index { decision with phase := .computed waitingOn } waitingOn

theorem MarkRun.settle {meets loses : MarkSystem → Nat → RunId → Prop} {system : MarkSystem} (run : MarkRun meets loses system)
    {index : Nat} {decision : RecordedDecision} {waitingOn : Option WaitingOn}
    (listed : system.decisions[index]? = some decision) (phase : decision.phase = .recorded)
    (computed : (system.compute index decision).decisions[index]? = some { decision with phase := .computed waitingOn })
    (met : meets (system.compute index decision) index decision.runId) :
    MarkRun meets loses (system.settle index decision waitingOn) :=
  .marked (.computed run index decision listed phase) index { decision with phase := .computed waitingOn } waitingOn
    computed rfl met

def signalDecision : RecordedDecision := ⟨0, true, [.runStarted "order" .null], 0, .recorded⟩

def stepDecision : RecordedDecision :=
  ⟨0, true, [.runStarted "order" .null, .signalReceived "go" .null, .stepScheduled "step-1" "ship" .null], 1, .recorded⟩

theorem waitingMarker_follows_signal : ∃ row, (signalAwaited.settle 0 signalDecision (some .external)).db.run? 0 = some row ∧
      row.waitingOn = some .external := by
  have run : MarkRun MarkSystem.InOrder MarkSystem.Superseded (signalAwaited.settle 0 signalDecision (some .external)) := by
    refine (signalAwaited_run _ _).settle rfl rfl rfl fun later other after listed => ?_
    exact absurd listed (by rw [List.getElem?_eq_none (show 1 ≤ later from after)]; simp)
  obtain ⟨row, found, -, external⟩ := waitingMarker_follows run 0
    (fun decision member own => by rw [List.mem_singleton.mp member]; rfl) 0 _ rfl rfl
    fun later other after listed => absurd listed (by rw [List.getElem?_eq_none (show 1 ≤ later from after)]; simp)
  exact ⟨row, found, external.mpr ⟨rfl, rfl⟩⟩

/-- The slower handler of the older decision marks last, and the run that waits for its own
step is left marked as waiting for the outside. -/
theorem waitingMarker_overwritten : ∃ system decision row, MarkRun (fun _ _ _ => True) MarkSystem.Superseded system ∧
    (∀ decision ∈ system.decisions, decision.phase.isPending = false) ∧
    system.decisions.getLast? = some decision ∧ decision.runId = 0 ∧ system.db.run? 0 = some row ∧
    decision.phase = .marked none ∧ row.waitingOn = some .external := by
  refine ⟨(stepAwaited.settle 1 stepDecision none).settle 0 signalDecision (some .external), _, _, ?_, ?_, rfl, rfl,
    rfl, rfl, rfl⟩
  · have newer : MarkRun (fun _ _ _ => True) MarkSystem.Superseded (stepAwaited.settle 1 stepDecision none) :=
      (stepAwaited_run _ _).settle rfl rfl rfl trivial
    exact newer.settle rfl rfl rfl trivial
  · intro decision member
    rcases List.mem_cons.mp member with rfl | member
    · rfl
    · rw [List.mem_singleton.mp member]
      rfl

end DurableExecution.Engine

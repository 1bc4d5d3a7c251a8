import DurableExecution.Engine.KeyedRuns

/-
This file proves when a start request with an idempotency key is idempotent: calls for one
key run between each other's statements and between the operations of the engine.
-/

namespace DurableExecution.Engine

open Workflow (JsValue WorkflowEvent WorkflowCommand Instant)
open Transaction

/-- The database and the calls of `startRun` for one key. -/
structure StartSystem where
  db : Database
  calls : List StartRunCall

section System

variable (known : String → Bool) (namespaceId : Nat) (idempotencyKey queueName : String)

/-- A call goes on. -/
def StartSystem.advance (now : Instant) (budget : Option Nat) (index : Nat) (call : StartRunCall)
    (system : StartSystem) : StartSystem :=
  let next := call.advance known namespaceId queueName now budget system.db
  ⟨next.2, system.calls.set index ⟨call.input, next.1⟩⟩

/-- Calls come in and go on in any order, between any operations of the engine. Each time a
call goes on, its request meets a condition on the database. -/
inductive StartRun (meets : Database → StartRunInput → Prop) : StartSystem → Prop
  | empty : StartRun meets ⟨emptyDatabase, []⟩
  | called {system : StartSystem} (run : StartRun meets system) (input : StartRunInput)
      (keyed : input.idempotencyKey = some idempotencyKey) :
      StartRun meets { system with calls := system.calls ++ [⟨input, .called⟩] }
  | advanced {system : StartSystem} (run : StartRun meets system) (index : Nat) (call : StartRunCall)
      (listed : system.calls[index]? = some call) (met : meets system.db call.input) (now : Instant)
      (budget : Option Nat) : StartRun meets (system.advance known namespaceId queueName now budget index call)
  | operated {system : StartSystem} (run : StartRun meets system) (op : EngineOp)
      (leaves : op.leaves namespaceId idempotencyKey) (now : Instant) (budget : Option Nat)
      (inTime : op.inTime system.db) : StartRun meets { system with db := op.run now budget system.db }

/-- The row has forgotten that its run was started with `null`: bringing it up to date with
the log turned `null` into an empty object. -/
def RunRow.forgotNull (row : RunRow) (db : Database) : Prop :=
  row.lastSequenceNumber ≠ 0 ∧ WorkflowEvent.runStarted row.workflowType .null ∈ db.log row.id

/-- The request can be compared with the run of its key: JSON keeps its input as it is, and the
run's row does not mistake `null` for an empty object. -/
def Comparable (db : Database) (input : StartRunInput) : Prop :=
  ∀ row ∈ db.runs, row.holds namespaceId idempotencyKey = true → row.workflowType = input.workflowType →
    input.stored = JsValue.orNull input.input ∧
      (row.forgotNull db → input.stored ≠ .null ∧ input.stored ≠ .object [])

/-- The request asks for what a run was started with. -/
def SameRequest (db : Database) (row : RunRow) (input : StartRunInput) : Prop :=
  row.workflowType = input.workflowType ∧ ∃ started,
    WorkflowEvent.runStarted row.workflowType started ∈ db.log row.id ∧ isDeepStrictEqual started input.stored = true

/-- This call made the run of the key. -/
def StartRunCall.creates (call : StartRunCall) : Bool :=
  match call.phase with
  | .inserted _ | .answered (.created _) => true
  | _ => false

/-- What a call was told is true. -/
def StartRunCall.Answered (call : StartRunCall) (db : Database) : Prop :=
  match call.phase with
  | .answered (.created run) => ∃ row ∈ db.runs, row.holds namespaceId idempotencyKey = true ∧ row.id = run.id ∧
      row.workflowType = call.input.workflowType ∧
      WorkflowEvent.runStarted call.input.workflowType call.input.stored ∈ db.log row.id
  | .answered (.existing run) => ∃ row ∈ db.runs, row.holds namespaceId idempotencyKey = true ∧ row.id = run.id ∧
      SameRequest db row call.input
  | .answered (.idempotencyConflict runId) => ∃ row ∈ db.runs, row.holds namespaceId idempotencyKey = true ∧
      row.id = runId ∧ ¬ SameRequest db row call.input
  | .answered .unknownWorkflowType => known call.input.workflowType = false
  | _ => True

end System

section Comparison

variable {namespaceId : Nat} {idempotencyKey : String} {keyed : KeyedRun} {db : Database} {row : RunRow}

theorem isDeepStrictEqual_null {value : JsValue} (other : value ≠ .null) : isDeepStrictEqual .null value = false := by
  cases value <;> first | rfl | exact absurd rfl other

theorem isDeepStrictEqual_empty {value : JsValue} (other : value ≠ .object []) : isDeepStrictEqual (.object []) value = false := by
  cases value with
  | object fields =>
    cases fields with
    | nil => exact absurd rfl other
    | cons field rest => simp [isDeepStrictEqual]
  | _ => rfl

theorem stored_defined (input : StartRunInput) : input.stored ≠ .undefined := by
  obtain ⟨workflowType, value, key, runTimeoutMs, executionTimeoutMs⟩ := input
  cases value with
  | number number => cases number <;> simp [StartRunInput.stored, JsValue.orNull, JsValue.stored, JsValue.jsonCopy]
  | _ => simp [StartRunInput.stored, JsValue.orNull, JsValue.stored, JsValue.jsonCopy]

theorem RunRow.holds_iff : row.holds namespaceId idempotencyKey = true ↔
    row.namespaceId = namespaceId ∧ row.idempotencyKey = some idempotencyKey := by
  simp [RunRow.holds]

/-- The row of the key is the row of its run. -/
theorem Keyed.only (held : Keyed namespaceId idempotencyKey keyed db) (member : row ∈ db.runs)
    (holds : row.holds namespaceId idempotencyKey = true) : db.run? keyed.runId = some row := by
  obtain ⟨row', found, holds', -⟩ := held.row
  have pair : db.runs.filter (·.holds namespaceId idempotencyKey) = [row'] := by
    have one : (db.runs.filter (·.holds namespaceId idempotencyKey)).length = 1 := by
      rw [← List.countP_eq_length_filter]
      exact held.one
    obtain ⟨only, same⟩ := List.length_eq_one_iff.mp one
    have listed : row' ∈ db.runs.filter (·.holds namespaceId idempotencyKey) :=
      List.mem_filter.mpr ⟨Database.run?_mem found, holds'⟩
    rw [same] at listed ⊢
    rw [List.mem_singleton.mp listed]
  have listed : row ∈ db.runs.filter (·.holds namespaceId idempotencyKey) := List.mem_filter.mpr ⟨member, holds⟩
  rw [pair] at listed
  rw [List.mem_singleton.mp listed]
  exact found

/-- The start event of a keyed run is in its log, and no other one is. -/
theorem Keyed.startEvent (held : Keyed namespaceId idempotencyKey keyed db) (workflowType : String) (started : JsValue) :
    WorkflowEvent.runStarted workflowType started ∈ db.log keyed.runId ↔ workflowType = keyed.workflowType ∧ started = keyed.input := by
  have all {event : WorkflowEvent} (listed : event ∈ db.log keyed.runId) (start : isRunStarted event = true) :
      event = .runStarted keyed.workflowType keyed.input := by
    obtain ⟨stored, member, rfl⟩ := List.mem_map.mp listed
    exact held.first stored member (held.starts stored member start)
  constructor
  · intro listed
    cases all listed rfl
    exact ⟨rfl, rfl⟩
  · rintro ⟨rfl, rfl⟩
    have positive : 0 < (db.log keyed.runId).countP isRunStarted := by
      rw [held.started]
      exact Nat.one_pos
    obtain ⟨event, listed, start⟩ := List.countP_pos_iff.mp positive
    exact all listed start ▸ listed

theorem sameRequest_iff (held : Keyed namespaceId idempotencyKey keyed db) (found : db.run? keyed.runId = some row)
    (input : StartRunInput) : SameRequest db row input ↔
      keyed.workflowType = input.workflowType ∧ isDeepStrictEqual keyed.input input.stored = true := by
  obtain ⟨row', found', -, type, -⟩ := held.row
  cases found.symm.trans found'
  have id := Database.run?_id found
  unfold SameRequest
  rw [id, type]
  simp only [held.startEvent, true_and]
  constructor
  · rintro ⟨type', started, rfl, same⟩
    exact ⟨type', same⟩
  · rintro ⟨type', same⟩
    exact ⟨type', keyed.input, rfl, same⟩

/-- A comparable request is found to be the same exactly when it is. -/
theorem comparison_right (held : Keyed namespaceId idempotencyKey keyed db) (found : db.run? keyed.runId = some row)
    {input : StartRunInput} (defined : keyed.input ≠ .undefined) (comparable : Comparable namespaceId idempotencyKey db input) :
    (row.workflowType == input.workflowType && isDeepStrictEqual row.input (JsValue.orNull input.input)) = true ↔
      SameRequest db row input := by
  rw [sameRequest_iff held found]
  obtain ⟨row', found', holds, type, folded⟩ := held.row
  cases found.symm.trans found'
  rw [Bool.and_eq_true, beq_iff_eq, type]
  refine and_congr_right fun type' => ?_
  obtain ⟨asStored, unlike⟩ := comparable row (Database.run?_mem found) holds (type.trans type')
  rw [← asStored]
  rcases folded with ⟨-, same⟩ | ⟨seen, same⟩
  · rw [same]
  · by_cases null : keyed.input = .null
    · have forgot : row.forgotNull db := by
        refine ⟨Nat.ne_of_gt seen, ?_⟩
        rw [Database.run?_id found, held.startEvent]
        exact ⟨type, null.symm⟩
      obtain ⟨notNull, notEmpty⟩ := unlike forgot
      rw [same, null, isDeepStrictEqual_null notNull]
      change isDeepStrictEqual (.object []) input.stored = true ↔ _
      rw [isDeepStrictEqual_empty notEmpty]
    · have kept : JsValue.orEmpty keyed.input = keyed.input := by
        unfold JsValue.orEmpty
        split
        · next undefined => exact absurd undefined defined
        · next null' => exact absurd null' null
        · rfl
      rw [same, kept]

end Comparison

/-- How far a call has come fits the run of its key. -/
def StartRunCall.Fits (known : String → Bool) (run : Option KeyedRun) (call : StartRunCall) : Prop :=
  match call.phase with
  | .inserted runId => ∃ keyed, run = some keyed ∧ runId = keyed.runId ∧
      keyed.workflowType = call.input.workflowType ∧ keyed.input = call.input.stored
  | .raced => run.isSome = true
  | .answered (.created row) => ∃ keyed, run = some keyed ∧ row.id = keyed.runId ∧
      keyed.workflowType = call.input.workflowType ∧ keyed.input = call.input.stored
  | .answered (.existing row) => ∃ keyed, run = some keyed ∧ row.id = keyed.runId ∧
      keyed.workflowType = call.input.workflowType ∧ isDeepStrictEqual keyed.input call.input.stored = true
  | .answered (.idempotencyConflict runId) => ∃ keyed, run = some keyed ∧ runId = keyed.runId ∧
      ¬ (keyed.workflowType = call.input.workflowType ∧ isDeepStrictEqual keyed.input call.input.stored = true)
  | .answered .unknownWorkflowType => known call.input.workflowType = false
  | _ => True

/-- What holds between two steps of the system. -/
structure StartInvariant (known : String → Bool) (namespaceId : Nat) (idempotencyKey : String)
    (run : Option KeyedRun) (system : StartSystem) : Prop where
  coherent : system.db.Coherent none
  keys : KeyState namespaceId idempotencyKey run system.db
  defined : ∀ keyed, run = some keyed → keyed.input ≠ .undefined
  created : system.calls.countP StartRunCall.creates = if run.isSome then 1 else 0
  keyed : ∀ call ∈ system.calls, call.input.idempotencyKey = some idempotencyKey
  fits : ∀ call ∈ system.calls, call.Fits known run

section Steps

variable {known : String → Bool} {namespaceId : Nat} {idempotencyKey queueName : String} {run : Option KeyedRun}
  {system : StartSystem} {call : StartRunCall} {index : Nat} {now : Instant} {budget : Option Nat} {db : Database}

/-- What the inserting transaction of a call answers. -/
theorem insertRun_answers (namespaceId : Nat) (queueName : String) (now : Instant) (budget : Option Nat)
    (input : StartRunInput) (coherent : db.Coherent none) :
    (∃ fault, insertRun namespaceId queueName input now budget db = (.error fault, db)) ∨
      insertRun namespaceId queueName input now budget db = (.ok none, db) ∧ input.idempotencyKey.isSome = true ∧
        (∃ row ∈ db.runs, row.namespaceId = namespaceId ∧ row.idempotencyKey = input.idempotencyKey) ∨
      ∃ db', insertRun namespaceId queueName input now budget db = (.ok (some db.nextId), db') ∧
        Opens now (startedRunRow namespaceId queueName input now db.nextId) input.stored .start db db' ∧
        ∀ row ∈ db.runs, input.idempotencyKey.isSome = true →
          ¬ (row.namespaceId = namespaceId ∧ row.idempotencyKey = input.idempotencyKey) := by
  have spec : Ensures (· = db) (insertRunOn namespaceId queueName input now) _ :=
    insertRunOn_spec namespaceId queueName input coherent.fresh
  rcases withTransaction_cases spec budget db rfl with
    ⟨fault, failed⟩ | ⟨answer, db', done, ⟨rfl, rfl, taken⟩ | ⟨rfl, opens, free⟩⟩
  · exact .inl ⟨fault, failed⟩
  · exact .inr (.inl ⟨done, taken⟩)
  · exact .inr (.inr ⟨db', done, opens, free⟩)

/-- A run that was just started for a free key holds it. -/
theorem Opens.keyed {input : StartRunInput} {db' : Database}
    (opens : Opens now (startedRunRow namespaceId queueName input now db.nextId) input.stored .start db db')
    (key : input.idempotencyKey = some idempotencyKey) (coherent : db.Coherent none) (keys : KeyState namespaceId idempotencyKey none db) :
    KeyState namespaceId idempotencyKey (some ⟨db.nextId, input.workflowType, input.stored⟩) db' := by
  obtain ⟨row', timeouts, columns, timed⟩ := opens
  have id : row'.id = db.nextId := (congrArg RunRow.id columns :)
  have holds : row'.holds namespaceId idempotencyKey = true := by
    have named : row'.namespaceId = namespaceId := (congrArg RunRow.namespaceId columns :)
    have keyed : row'.idempotencyKey = input.idempotencyKey := (congrArg RunRow.idempotencyKey columns :)
    exact RunRow.holds_iff.mpr ⟨named, keyed.trans key⟩
  have stored : (db.opened row' timeouts input.stored .start now).storedEvents db.nextId =
      [⟨row'.id, 1, .runStarted row'.workflowType input.stored, now⟩] := by
    rw [Database.opened_storedEvents, coherent.unborn_storedEvents, if_pos id.symm, List.nil_append]
  have type : row'.workflowType = input.workflowType := (congrArg RunRow.workflowType columns :)
  refine ⟨fun task member => ?_, nofun, ?_⟩
  · rcases List.mem_append.mp member with before | new
    · exact Nat.lt_of_lt_of_le (keys.tasks task before) (Nat.le_add_right _ _)
    · rw [List.mem_singleton.mp new]
      change row'.id < db.nextId + 2
      rw [id]
      exact Nat.lt_add_of_pos_right Nat.two_pos
  · rintro _ ⟨⟩
    refine ⟨Nat.lt_add_of_pos_right Nat.two_pos, ⟨row', ?_, holds, type, .inl ?_⟩, ?_, ?_, ?_, ?_, ?_⟩
    · rw [Database.opened_run? coherent.fresh id, if_pos id.symm]
    · exact ⟨(congrArg RunRow.lastSequenceNumber columns :), (congrArg RunRow.input columns :)⟩
    · change (db.runs ++ [row']).countP _ = 1
      have none : db.runs.countP (·.holds namespaceId idempotencyKey) = 0 :=
        List.countP_eq_zero.mpr fun row member => by simp [keys.free rfl row member]
      rw [List.countP_append, none, List.countP_singleton, if_pos holds]
    · intro event member _
      rw [stored] at member
      rw [List.mem_singleton.mp member, type]
    · intro event member _
      rw [stored] at member
      rw [List.mem_singleton.mp member]
    · rw [Database.log, stored]
      rfl
    · change (db.tasks ++ [newTask row'.namespaceId row'.id row'.queueName (.workflowTask .start) now.ms
        (db.nextId + 1)]).countP _ = 1
      have none : db.tasks.countP (fun task => task.runId == db.nextId && task.payload.isFirst) = 0 := by
        refine List.countP_eq_zero.mpr fun task member => ?_
        have known := Nat.ne_of_lt (keys.tasks task member)
        simp [known]
      rw [List.countP_append, none, List.countP_singleton, if_pos]
      simp [newTask, id, TaskPayload.isFirst]

theorem countP_set_creates {calls : List StartRunCall} (next : StartRunCall) (listed : calls[index]? = some call) :
    (calls.set index next).countP StartRunCall.creates + (if call.creates then 1 else 0) =
      calls.countP StartRunCall.creates + if next.creates then 1 else 0 := by
  obtain ⟨inside, same⟩ := List.getElem?_eq_some_iff.mp listed
  have positive : call.creates = true → 0 < calls.countP StartRunCall.creates := fun creates =>
    List.countP_pos_iff.mpr ⟨call, List.mem_of_getElem? listed, creates⟩
  rw [List.countP_set inside, same]
  split
  · next creates =>
      have some' := positive creates
      omega
  · omega

/-- A call that did not know of a run fits one that another call starts. -/
theorem StartRunCall.Fits.taken {keyed : KeyedRun} (fits : call.Fits known none) : call.Fits known (some keyed) := by
  obtain ⟨input, phase⟩ := call
  cases phase with
  | called => trivial
  | absent => trivial
  | inserted runId =>
    obtain ⟨other, impossible, -⟩ := fits
    cases impossible
  | raced => rfl
  | answered answer =>
    cases answer with
    | unknownWorkflowType => exact fits
    | failed => trivial
    | created run | existing run | idempotencyConflict runId =>
      obtain ⟨other, impossible, -⟩ := fits
      cases impossible

/-- A call goes on without changing the run of its key. -/
theorem StartInvariant.goesOn (invariant : StartInvariant known namespaceId idempotencyKey run system)
    (listed : system.calls[index]? = some call) {phase : StartRunPhase}
    (fits : StartRunCall.Fits known run ⟨call.input, phase⟩)
    (creates : StartRunCall.creates ⟨call.input, phase⟩ = call.creates) :
    StartInvariant known namespaceId idempotencyKey run
      { system with calls := system.calls.set index ⟨call.input, phase⟩ } := by
  have member := List.mem_of_getElem? listed
  refine { invariant with created := ?_, keyed := ?_, fits := ?_ }
  · have counted := countP_set_creates ⟨call.input, phase⟩ listed
    rw [creates] at counted
    rw [← invariant.created]
    exact Nat.add_right_cancel counted
  · intro other listed'
    rcases List.mem_or_eq_of_mem_set listed' with before | rfl
    · exact invariant.keyed other before
    · exact invariant.keyed call member
  · intro other listed'
    rcases List.mem_or_eq_of_mem_set listed' with before | rfl
    · exact invariant.fits other before
    · exact fits

/-- What looking up the key answers. -/
theorem findByKey_cases {input : StartRunInput} (keys : KeyState namespaceId idempotencyKey run db)
    (key : input.idempotencyKey = some idempotencyKey) :
    findByKey namespaceId input db = none ∧ run = none ∨
      ∃ keyed row, run = some keyed ∧ db.run? keyed.runId = some row ∧
        findByKey namespaceId input db = some
          (if row.workflowType == input.workflowType && isDeepStrictEqual row.input (JsValue.orNull input.input)
            then .existing row else .idempotencyConflict row.id) := by
  unfold findByKey
  rw [key, Option.bind_some]
  cases found : db.runByKey? namespaceId idempotencyKey with
  | none =>
    left
    refine ⟨rfl, ?_⟩
    cases run with
    | none => rfl
    | some keyed =>
      obtain ⟨row, found', holds, -⟩ := (keys.held keyed rfl).row
      have apart := List.find?_eq_none.mp found row (Database.run?_mem found')
      exact absurd holds apart
  | some row =>
    right
    have member := List.mem_of_find?_eq_some found
    unfold Database.runByKey? at found
    have holds : row.holds namespaceId idempotencyKey = true := by
      have matching := List.find?_some found
      exact matching
    cases run with
    | none =>
      rw [keys.free rfl row member] at holds
      cases holds
    | some keyed => exact ⟨keyed, row, rfl, (keys.held keyed rfl).only member holds, rfl⟩

/-- A call that looks its key up is told the truth when its request can be compared. -/
theorem findByKey_fits (invariant : StartInvariant known namespaceId idempotencyKey run system)
    (member : call ∈ system.calls) (comparable : Comparable namespaceId idempotencyKey system.db call.input) :
    findByKey namespaceId call.input system.db = none ∧ run = none ∨ ∃ answer, findByKey namespaceId call.input system.db = some answer ∧
        StartRunCall.Fits known run ⟨call.input, .answered answer⟩ ∧ StartRunCall.creates ⟨call.input, .answered answer⟩ = false := by
  rcases findByKey_cases invariant.keys (invariant.keyed call member) with absent | ⟨keyed, row, rfl, found, answered⟩
  · exact .inl absent
  · have held := invariant.keys.held keyed rfl
    have right := comparison_right held found (invariant.defined keyed rfl) comparable
    rw [sameRequest_iff held found] at right
    refine .inr ⟨_, answered, ?_⟩
    split
    · next same => exact ⟨⟨keyed, rfl, Database.run?_id found, right.mp same⟩, rfl⟩
    · next apart => exact ⟨⟨keyed, rfl, Database.run?_id found, fun same => apart (right.mpr same)⟩, rfl⟩

/-- One step of a call. -/
theorem StartInvariant.advanced (invariant : StartInvariant known namespaceId idempotencyKey run system)
    (listed : system.calls[index]? = some call) (comparable : Comparable namespaceId idempotencyKey system.db call.input) :
    ∃ run', (run = run' ∨ run = none) ∧ StartInvariant known namespaceId idempotencyKey run'
      (system.advance known namespaceId queueName now budget index call) := by
  have member := List.mem_of_getElem? listed
  have fits := invariant.fits call member
  obtain ⟨input, phase⟩ := call
  cases phase with
  | called =>
    refine ⟨run, .inl rfl, ?_⟩
    unfold StartSystem.advance StartRunCall.advance
    dsimp only
    cases knows : known input.workflowType with
    | false => exact invariant.goesOn listed knows rfl
    | true =>
      rcases findByKey_fits invariant member comparable with ⟨absent, -⟩ | ⟨answer, answered, fits', creates⟩
      · dsimp only at absent
        simp only [if_true, absent]
        exact invariant.goesOn listed trivial rfl
      · dsimp only at answered
        simp only [if_true, answered]
        exact invariant.goesOn listed fits' creates
  | absent =>
    have key : input.idempotencyKey = some idempotencyKey := invariant.keyed _ member
    unfold StartSystem.advance StartRunCall.advance
    dsimp only
    rcases insertRun_answers namespaceId queueName now budget input invariant.coherent with
      ⟨fault, failed⟩ | ⟨none, -, row, listed', holds⟩ | ⟨db', inserted, opens, free⟩
    · simp only [failed]
      exact ⟨run, .inl rfl, invariant.goesOn listed trivial rfl⟩
    · simp only [none]
      refine ⟨run, .inl rfl, invariant.goesOn listed ?_ rfl⟩
      cases run with
      | none =>
        have apart := invariant.keys.free rfl row listed'
        rw [RunRow.holds_iff.mpr ⟨holds.1, holds.2.trans key⟩] at apart
        cases apart
      | some keyed => rfl
    · simp only [inserted]
      have none : run = none := by
        cases run with
        | none => rfl
        | some keyed =>
          obtain ⟨row, found, holds, -⟩ := (invariant.keys.held keyed rfl).row
          have holds' := RunRow.holds_iff.mp holds
          exact absurd ⟨holds'.1, holds'.2.trans key.symm⟩ (free row (Database.run?_mem found) (by rw [key]; rfl))
      subst none
      refine ⟨some ⟨system.db.nextId, input.workflowType, input.stored⟩, .inr rfl, ?_⟩
      constructor
      · exact opens.coherent invariant.coherent rfl rfl rfl nofun
      · exact opens.keyed key invariant.coherent invariant.keys
      · rintro _ ⟨⟩
        exact stored_defined input
      · have counted := countP_set_creates ⟨input, .inserted system.db.nextId⟩ listed
        rw [invariant.created] at counted
        exact counted
      · intro other listed'
        rcases List.mem_or_eq_of_mem_set listed' with before | rfl
        · exact invariant.keyed other before
        · exact key
      · intro other listed'
        rcases List.mem_or_eq_of_mem_set listed' with before | rfl
        · exact (invariant.fits other before).taken
        · exact ⟨_, rfl, rfl, rfl, rfl⟩
  | inserted runId =>
    refine ⟨run, .inl rfl, ?_⟩
    obtain ⟨keyed, rfl, rfl, type, same⟩ := fits
    obtain ⟨row, found, holds, -⟩ := (invariant.keys.held keyed rfl).row
    have owned := (RunRow.holds_iff.mp holds).1
    have read : (system.db.run? keyed.runId).filter (fun row => row.namespaceId == namespaceId) = some row := by
      rw [found, Option.filter_some, if_pos (by simpa using owned)]
    unfold StartSystem.advance StartRunCall.advance
    simp only [read]
    exact invariant.goesOn listed ⟨keyed, rfl, Database.run?_id found, type, same⟩ rfl
  | raced =>
    refine ⟨run, .inl rfl, ?_⟩
    unfold StartSystem.advance StartRunCall.advance
    rcases findByKey_fits invariant member comparable with ⟨-, none⟩ | ⟨answer, answered, fits', creates⟩
    · have holds : run.isSome = true := fits
      rw [none] at holds
      cases holds
    · dsimp only at answered
      simp only [answered]
      exact invariant.goesOn listed fits' creates
  | answered answer =>
    refine ⟨run, .inl rfl, ?_⟩
    exact invariant.goesOn listed fits rfl

/-- The invariant holds after every run whose requests can be compared, by induction on the run. -/
theorem startRun_invariant (steps : StartRun known namespaceId idempotencyKey queueName (Comparable namespaceId idempotencyKey) system) :
    ∃ run, StartInvariant known namespaceId idempotencyKey run system := by
  induction steps with
  | empty =>
    refine ⟨none, emptyDatabase_coherent, ⟨?_, ?_, ?_⟩, ?_, rfl, ?_, ?_⟩
    all_goals simp [emptyDatabase]
  | called steps input keyed ih =>
    obtain ⟨run, invariant⟩ := ih
    refine ⟨run, { invariant with created := ?_, keyed := ?_, fits := ?_ }⟩
    · rw [List.countP_append, invariant.created]
      rfl
    · intro call listed
      rcases List.mem_append.mp listed with before | new
      · exact invariant.keyed call before
      · rw [List.mem_singleton.mp new]
        exact keyed
    · intro call listed
      rcases List.mem_append.mp listed with before | new
      · exact invariant.fits call before
      · rw [List.mem_singleton.mp new]
        trivial
  | advanced steps index call listed comparable now budget ih =>
    obtain ⟨run, invariant⟩ := ih
    obtain ⟨run', -, next⟩ := invariant.advanced listed comparable
    exact ⟨run', next⟩
  | operated steps op leaves now budget inTime ih =>
    obtain ⟨run, invariant⟩ := ih
    have outcome : StepsOrStays now op _ (op.run now budget _) := op.run_cases budget invariant.coherent inTime
    rcases outcome with same | step
    · rw [same]
      exact ⟨run, invariant⟩
    · exact ⟨run, { invariant with
        coherent := step.coherent invariant.coherent
        keys := step.keyState invariant.coherent invariant.keys leaves }⟩

/-- Only the call that makes the run changes the database, and only its transaction can fail. -/
theorem advance_quiet (invariant : StartInvariant known namespaceId idempotencyKey run system) (listed : system.calls[index]? = some call) :
    ((call.advance known namespaceId queueName now budget system.db).2 = system.db ∨
      ∃ runId, (call.advance known namespaceId queueName now budget system.db).1 = .inserted runId) ∧
    ((call.advance known namespaceId queueName now budget system.db).1 = .answered .failed →
      call.phase = .absent ∨ call.phase = .answered .failed) := by
  have member := List.mem_of_getElem? listed
  have fits := invariant.fits call member
  have keyed := invariant.keyed call member
  obtain ⟨input, phase⟩ := call
  unfold StartRunCall.advance
  cases phase with
  | called =>
    dsimp only
    split
    · split
      · next answer answered =>
          refine ⟨.inl rfl, fun failed => ?_⟩
          rcases findByKey_cases invariant.keys keyed with ⟨absent, -⟩ | ⟨-, row, -, -, found⟩
          · cases absent.symm.trans answered
          · cases failed
            rw [answered] at found
            split at found <;> cases found
      · exact ⟨.inl rfl, nofun⟩
    · exact ⟨.inl rfl, nofun⟩
  | absent =>
    dsimp only
    rcases insertRun_answers namespaceId queueName now budget input invariant.coherent with
      ⟨fault, failed⟩ | ⟨none, -⟩ | ⟨db', inserted, -⟩
    · rw [failed]
      exact ⟨.inl rfl, fun _ => .inl rfl⟩
    · rw [none]
      exact ⟨.inl rfl, nofun⟩
    · rw [inserted]
      exact ⟨.inr ⟨_, rfl⟩, nofun⟩
  | inserted runId =>
    obtain ⟨held, rfl, rfl, -⟩ := fits
    obtain ⟨row, found, holds, -⟩ := (invariant.keys.held held rfl).row
    have owned := (RunRow.holds_iff.mp holds).1
    have read : (system.db.run? held.runId).filter (fun row => row.namespaceId == namespaceId) = some row := by
      rw [found, Option.filter_some, if_pos (by simpa using owned)]
    dsimp only
    rw [read]
    exact ⟨.inl rfl, nofun⟩
  | raced =>
    dsimp only
    rcases findByKey_cases invariant.keys keyed with ⟨-, none⟩ | ⟨-, row, -, -, found⟩
    · have holds : run.isSome = true := fits
      rw [none] at holds
      cases holds
    · dsimp only at found
      split at found
      · rw [found]
        exact ⟨.inl rfl, nofun⟩
      · rw [found]
        exact ⟨.inl rfl, nofun⟩
  | answered answer => exact ⟨.inl rfl, fun failed => .inr failed⟩

/-- In every run whose requests can be compared, an idempotency key has at most one run, and that
run has one start event, one first workflow task and one call that made it; what each call is told
is true; and no call that does not make the run changes anything. -/
theorem startRun_idempotent (steps : StartRun known namespaceId idempotencyKey queueName (Comparable namespaceId idempotencyKey) system) :
    system.db.runs.countP (·.holds namespaceId idempotencyKey) ≤ 1 ∧ (∀ row ∈ system.db.runs, row.holds namespaceId idempotencyKey = true →
      (system.db.log row.id).countP isRunStarted = 1 ∧
      system.db.tasks.countP (fun task => task.runId == row.id && task.payload.isFirst) = 1 ∧
      system.calls.countP StartRunCall.creates = 1) ∧ (∀ call ∈ system.calls, call.Answered known namespaceId idempotencyKey system.db) ∧
    ∀ (index : Nat) (call : StartRunCall), system.calls[index]? = some call → ∀ (now : Instant) (budget : Option Nat),
      ((call.advance known namespaceId queueName now budget system.db).2 = system.db ∨
        ∃ runId, (call.advance known namespaceId queueName now budget system.db).1 = .inserted runId) ∧
      ((call.advance known namespaceId queueName now budget system.db).1 = .answered .failed →
        call.phase = .absent ∨ call.phase = .answered .failed) := by
  obtain ⟨run, invariant⟩ := startRun_invariant steps
  refine ⟨?_, ?_, ?_, fun index call listed now budget => advance_quiet invariant listed⟩
  · cases run with
    | none =>
      have none : system.db.runs.countP (·.holds namespaceId idempotencyKey) = 0 :=
        List.countP_eq_zero.mpr fun row member => by simp [invariant.keys.free rfl row member]
      rw [none]
      exact Nat.zero_le 1
    | some keyed => exact (invariant.keys.held keyed rfl).one.le
  · intro row member holds
    cases run with
    | none =>
      rw [invariant.keys.free rfl row member] at holds
      cases holds
    | some keyed =>
      have held := invariant.keys.held keyed rfl
      have id := Database.run?_id (held.only member holds)
      rw [id]
      exact ⟨held.started, held.task, invariant.created⟩
  · intro call listed
    have fits := invariant.fits call listed
    have rowOf {keyed : KeyedRun} (same : run = some keyed) : ∃ row ∈ system.db.runs,
        row.holds namespaceId idempotencyKey = true ∧ row.id = keyed.runId ∧ row.workflowType = keyed.workflowType ∧
        system.db.run? keyed.runId = some row := by
      obtain ⟨row, found, holds, type, -⟩ := (invariant.keys.held keyed same).row
      exact ⟨row, Database.run?_mem found, holds, Database.run?_id found, type, found⟩
    obtain ⟨input, phase⟩ := call
    cases phase with
    | called => trivial
    | absent => trivial
    | inserted runId => trivial
    | raced => trivial
    | answered answer =>
      cases answer with
      | unknownWorkflowType => exact fits
      | failed => trivial
      | created run' =>
        obtain ⟨keyed, same, id, type, input'⟩ := fits
        obtain ⟨row, member, holds, id', type', found⟩ := rowOf same
        refine ⟨row, member, holds, id'.trans id.symm, type'.trans type, ?_⟩
        rw [id', (invariant.keys.held keyed same).startEvent]
        exact ⟨type.symm, input'.symm⟩
      | existing run' =>
        obtain ⟨keyed, same, id, equal⟩ := fits
        obtain ⟨row, member, holds, id', -, found⟩ := rowOf same
        exact ⟨row, member, holds, id'.trans id.symm,
          (sameRequest_iff (invariant.keys.held keyed same) found input).mpr equal⟩
      | idempotencyConflict runId =>
        obtain ⟨keyed, same, id, apart⟩ := fits
        obtain ⟨row, member, holds, id', -, found⟩ := rowOf same
        exact ⟨row, member, holds, id'.trans id.symm,
          fun equal => apart ((sameRequest_iff (invariant.keys.held keyed same) found input).mp equal)⟩

/-- A request with a key and an input that JSON keeps. -/
def orderRequest : StartRunInput := ⟨"order", .string "order-1001", some "order-1001", none, none⟩

/-- The same request without an input. -/
def bareRequest : StartRunInput := ⟨"order", .undefined, some "order-1001", none, none⟩

/-- A run that completes. -/
def completeFirst : EngineOp := .recordWorkflowTaskResult (some "main") 0 "task-1" 1 [.completeRun .null]

/-- A request makes a run, the run completes, and the request is repeated. -/
def repeated (request : StartRunInput) : StartSystem :=
  let begun : StartSystem := ⟨emptyDatabase, [⟨request, .called⟩, ⟨request, .called⟩]⟩
  let absent := begun.advance (fun _ => true) 0 "main" .epoch none 0 ⟨request, .called⟩
  let inserted := absent.advance (fun _ => true) 0 "main" .epoch none 0 ⟨request, .absent⟩
  let created := inserted.advance (fun _ => true) 0 "main" .epoch none 0 ⟨request, .inserted 0⟩
  let completed : StartSystem := { created with db := completeFirst.run .epoch none created.db }
  completed.advance (fun _ => true) 0 "main" .epoch none 1 ⟨request, .called⟩

theorem startRun_idempotent_order : (repeated orderRequest).db.runs.countP (·.holds 0 "order-1001") ≤ 1 ∧
      (∃ first second, (repeated orderRequest).calls =
        [⟨orderRequest, .answered (.created first)⟩, ⟨orderRequest, .answered (.existing second)⟩] ∧ second.status = .completed) := by
  have steps : StartRun (fun _ => true) 0 "order-1001" "main" (Comparable 0 "order-1001") (repeated orderRequest) := by
    refine .advanced (.operated (.advanced (.advanced (.advanced (.called (.called .empty orderRequest rfl)
      orderRequest rfl) 0 ⟨orderRequest, .called⟩ rfl ?_ .epoch none) 0 ⟨orderRequest, .absent⟩ rfl ?_ .epoch none)
      0 ⟨orderRequest, .inserted 0⟩ rfl ?_ .epoch none) completeFirst trivial .epoch none trivial)
      1 ⟨orderRequest, .called⟩ rfl ?_ .epoch none
    all_goals exact fun row member holds same => ⟨rfl, fun _ => ⟨nofun, nofun⟩⟩
  exact ⟨(startRun_idempotent steps).1, _, _, rfl, rfl⟩

/-- Without an input, the request is refused once its run has completed. -/
theorem startRun_forgetsAbsentInput : ∃ system, StartRun (fun _ => true) 0 "order-1001" "main" (fun _ _ => True) system ∧ ∃ run,
      system.calls = [⟨bareRequest, .answered (.created run)⟩, ⟨bareRequest, .answered (.idempotencyConflict run.id)⟩] := by
  refine ⟨repeated bareRequest, ?_, _, rfl⟩
  exact .advanced (.operated (.advanced (.advanced (.advanced (.called (.called .empty bareRequest rfl)
    bareRequest rfl) 0 ⟨bareRequest, .called⟩ rfl trivial .epoch none) 0 ⟨bareRequest, .absent⟩ rfl trivial .epoch none)
    0 ⟨bareRequest, .inserted 0⟩ rfl trivial .epoch none) completeFirst trivial .epoch none trivial)
    1 ⟨bareRequest, .called⟩ rfl trivial .epoch none

end Steps

end DurableExecution.Engine

import DurableExecution.Engine.TimerFrames
import DurableExecution.Engine.HistoryCompactor
import DurableExecution.Workflow.RunLog

/-
This file proves that the timeouts of runs bound a whole chain: every run of it has the deadline
of the first one and its own timers, and no run times out early or outlives a tick.
-/

namespace DurableExecution.Engine

open Workflow (JsValue JsNumber WorkflowEvent WorkflowCommand ParentClosePolicy TimeoutKind commandToEvent Instant)
open Transaction

/-- The id of the timer of a timeout. -/
def timeoutTimerId : TimeoutKind → String
  | .execution => executionTimeoutTimerId
  | .run => runTimeoutTimerId

/-- The instant at which a timer of a run's limits ends the run. -/
def RunRow.timeoutAt (row : RunRow) (timerId : String) : Option Instant :=
  if timerId = executionTimeoutTimerId then row.executionDeadline
  else if timerId = runTimeoutTimerId then row.runTimeoutMs.bind fun ms => row.createdAt.after ms
  else none

section Limits

variable {row row' : RunRow} {timerId : String} {fireAt : Instant}

theorem isTimeoutTimerId_iff : isTimeoutTimerId timerId = true ↔ timerId = runTimeoutTimerId ∨ timerId = executionTimeoutTimerId := by
  simp [isTimeoutTimerId]

theorem RunRow.timeoutAt_isTimeout (limited : row.timeoutAt timerId = some fireAt) : isTimeoutTimerId timerId = true := by
  unfold RunRow.timeoutAt at limited
  split at limited
  · next execution => exact isTimeoutTimerId_iff.mpr (.inr execution)
  · split at limited
    · next run => exact isTimeoutTimerId_iff.mpr (.inl run)
    · cases limited

theorem RunRow.timeoutAt_congr (runTimeout : row'.runTimeoutMs = row.runTimeoutMs)
    (deadline : row'.executionDeadline = row.executionDeadline) (created : row'.createdAt = row.createdAt) :
    row'.timeoutAt timerId = row.timeoutAt timerId := by
  simp only [RunRow.timeoutAt, runTimeout, deadline, created]

/-- The timers of the limits, by their instants. -/
theorem RunRow.mem_timeoutTimers {timer : TimerRow} : timer ∈ row.timeoutTimers ↔
    timer.runId = row.id ∧ timer.state = .pending ∧ row.timeoutAt timer.timerId = some timer.fireAt := by
  have apart : runTimeoutTimerId ≠ executionTimeoutTimerId := by decide
  rw [RunRow.timeoutTimers, List.mem_append, Option.mem_toList, Option.mem_toList, Option.map_eq_some_iff,
    Option.map_eq_some_iff]
  constructor
  · rintro (⟨fireAt, date, rfl⟩ | ⟨fireAt, date, rfl⟩)
    · refine ⟨rfl, rfl, ?_⟩
      rw [RunRow.timeoutAt, if_neg apart, if_pos rfl]
      exact date
    · refine ⟨rfl, rfl, ?_⟩
      rw [RunRow.timeoutAt, if_pos rfl]
      exact date
  · rintro ⟨own, pending, limited⟩
    obtain ⟨runId, timerId, fireAt, state⟩ := timer
    cases own
    cases pending
    unfold RunRow.timeoutAt at limited
    split at limited
    · next execution =>
        cases execution
        exact .inr ⟨fireAt, limited, rfl⟩
    · split at limited
      · next run =>
          cases run
          exact .inl ⟨fireAt, limited, rfl⟩
      · cases limited

end Limits

/-- The timeouts of all runs are in order, and the runs of an earlier database are still there. -/
structure Bounded (base db : Database) : Prop where
  distinct : (db.runs.map RunRow.id).Nodup
  fresh : ∀ row ∈ db.runs, row.id < db.nextId
  owned : ∀ timer ∈ db.timers, ∃ row ∈ db.runs, row.id = timer.runId ∧
    (isTimeoutTimerId timer.timerId = true → row.timeoutAt timer.timerId = some timer.fireAt)
  waits : ∀ row ∈ db.runs, ∀ timerId fireAt, row.timeoutAt timerId = some fireAt →
    ∃ timer ∈ db.timers, timer.key = (row.id, timerId) ∧ timer.fireAt = fireAt ∧
      (row.status = .running → timer.state = .pending)
  represented : ∀ row ∈ db.runs, ∀ ms, row.runTimeoutMs = some ms → (row.createdAt.after ms).isSome
  chain : ∀ row ∈ db.runs, ∃ head ∈ db.runs, head.id = row.firstRunId ∧ head.firstRunId = head.id ∧
    row.runTimeoutMs = head.runTimeoutMs ∧ row.executionDeadline = head.executionDeadline
  child : ∀ row ∈ db.runs, ∀ parentRunId childId, row.parentRunId = some parentRunId → row.parentChildId = some childId →
    ∃ stored ∈ db.events, stored.runId = parentRunId ∧ ∃ workflowType input policy runTimeoutMs executionTimeoutMs,
      stored.event = .childStarted childId workflowType input policy runTimeoutMs executionTimeoutMs ∧
        RunTimeoutLimits.Bound ⟨runTimeoutMs, executionTimeoutMs, none⟩ row
  ended : ∀ stored ∈ db.events, ∀ kind, stored.event = .runTimedOut kind → ∃ row ∈ db.runs, row.id = stored.runId ∧
    ∃ timeout, kind = some timeout ∧ ∃ fireAt, row.timeoutAt (timeoutTimerId timeout) = some fireAt ∧
      fireAt.ms ≤ stored.createdAt.ms
  timedOut : ∀ row ∈ db.runs, row.status = .timedOut → ∃ stored ∈ db.events, stored.runId = row.id ∧
    ∃ kind, stored.event = .runTimedOut kind
  kept : ∀ row ∈ base.runs, ∃ row' ∈ db.runs, row'.identity = row.identity

section Keeping

variable {base db db' : Database} {runId : RunId} {timerId : String}

theorem RunTimeoutLimits.Bound.congr {limits : RunTimeoutLimits} {row row' : RunRow} (bound : limits.Bound row)
    (runTimeout : row'.runTimeoutMs = row.runTimeoutMs) (deadline : row'.executionDeadline = row.executionDeadline)
    (created : row'.createdAt = row.createdAt) : limits.Bound row' := by
  obtain ⟨accepted, represented, deadline'⟩ := bound
  rw [← runTimeout] at accepted
  rw [← runTimeout, ← created] at represented
  rw [← deadline, ← created] at deadline'
  exact ⟨accepted, represented, deadline'⟩

theorem Bounded.steady (bounded : Bounded base db) (steady : Steady db db') : Bounded base db' := by
  obtain ⟨rows, events, quiet⟩ := steady.events
  have limits {row row' : RunRow} (continues : RunRow.Continues db' row row') (id : String) :
      row'.timeoutAt id = row.timeoutAt id := by
    obtain ⟨-, -, -, -, -, runTimeout, deadline, created⟩ := continues.columns
    exact RunRow.timeoutAt_congr runTimeout deadline created
  constructor
  · rw [steady.ids]
    exact bounded.distinct
  · intro row' member
    obtain ⟨row, listed, continues⟩ := steady.before member
    rw [continues.columns.1]
    exact lt_of_lt_of_le (bounded.fresh row listed) steady.nextId
  · intro timer listed
    rw [steady.timers] at listed
    obtain ⟨row, member, own, limited⟩ := bounded.owned timer listed
    obtain ⟨row', member', continues⟩ := steady.after member
    exact ⟨row', member', continues.columns.1.trans own, fun timeout => (limits continues _).trans (limited timeout)⟩
  · intro row' member timerId fireAt limited
    obtain ⟨row, listed, continues⟩ := steady.before member
    obtain ⟨timer, waiting, key, at', pending⟩ := bounded.waits row listed timerId fireAt ((limits continues _).symm.trans limited)
    rw [steady.timers, continues.columns.1]
    exact ⟨timer, waiting, key, at', fun running => pending (continues.running running)⟩
  · intro row' member ms timed
    obtain ⟨row, listed, continues⟩ := steady.before member
    obtain ⟨-, -, -, -, -, runTimeout, -, created⟩ := continues.columns
    rw [created]
    exact bounded.represented row listed ms (runTimeout.symm.trans timed)
  · intro row' member
    obtain ⟨row, listed, continues⟩ := steady.before member
    obtain ⟨head, first, id, own, runTimeout, deadline⟩ := bounded.chain row listed
    obtain ⟨head', first', continues'⟩ := steady.after first
    obtain ⟨-, chain, -, -, -, sameTimeout, sameDeadline, -⟩ := continues.columns
    obtain ⟨headId, headChain, -, -, -, headTimeout, headDeadline, -⟩ := continues'.columns
    exact ⟨head', first', headId.trans (id.trans chain.symm), headChain.trans (own.trans headId.symm),
      sameTimeout.trans (runTimeout.trans headTimeout.symm), sameDeadline.trans (deadline.trans headDeadline.symm)⟩
  · intro row' member parentRunId childId hangs named
    obtain ⟨row, listed, continues⟩ := steady.before member
    obtain ⟨-, -, -, parent, child, runTimeout, deadline, created⟩ := continues.columns
    obtain ⟨stored, logged, own, workflowType, input, policy, runTimeoutMs, executionTimeoutMs, event, bound⟩ :=
      bounded.child row listed parentRunId childId (parent.symm.trans hangs) (child.symm.trans named)
    exact ⟨stored, steady.logged logged, own, workflowType, input, policy, runTimeoutMs, executionTimeoutMs, event,
      bound.congr runTimeout deadline created⟩
  · intro stored listed kind event
    rw [events] at listed
    rcases List.mem_append.mp listed with old | new
    · obtain ⟨row, member, own, timeout, some', fireAt, limited, late⟩ := bounded.ended stored old kind event
      obtain ⟨row', member', continues⟩ := steady.after member
      exact ⟨row', member', continues.columns.1.trans own, timeout, some', fireAt, (limits continues _).trans limited, late⟩
    · have silent := quiet stored new
      rw [event] at silent
      cases silent
  · intro row' member closed
    obtain ⟨row, listed, continues⟩ := steady.before member
    rw [continues.columns.1]
    rcases continues.timedOut closed with before | logged
    · obtain ⟨stored, logged, rest⟩ := bounded.timedOut row listed before
      exact ⟨stored, steady.logged logged, rest⟩
    · exact logged
  · intro row member
    obtain ⟨middle, listed, same⟩ := bounded.kept row member
    obtain ⟨row', member', continues⟩ := steady.after listed
    exact ⟨row', member', continues.identity.trans same⟩

theorem Bounded.known (bounded : Bounded base db) {timer : TimerRow} (listed : timer ∈ db.timers) : timer.runId < db.nextId := by
  obtain ⟨row, member, own, -⟩ := bounded.owned timer listed
  exact own ▸ bounded.fresh row member

theorem Bounded.started {fireAt : Instant} (bounded : Bounded base db) (apart : isTimeoutTimerId timerId = false)
    (exists' : (db.run? runId).isSome) :
    Bounded base { db with timers := db.timers ++ [⟨runId, timerId, fireAt, .pending⟩] } where
  distinct := bounded.distinct
  fresh := bounded.fresh
  owned timer listed := by
    rcases List.mem_append.mp listed with old | new
    · exact bounded.owned timer old
    · rw [List.mem_singleton.mp new]
      obtain ⟨row, member, own⟩ := Database.run?_isSome.mp exists'
      refine ⟨row, member, own, fun timeout => ?_⟩
      rw [apart] at timeout
      cases timeout
  waits row member timerId fireAt limited := by
    obtain ⟨timer, listed, rest⟩ := bounded.waits row member timerId fireAt limited
    exact ⟨timer, List.mem_append_left _ listed, rest⟩
  represented := bounded.represented
  chain := bounded.chain
  child := bounded.child
  ended := bounded.ended
  timedOut := bounded.timedOut
  kept := bounded.kept

theorem Bounded.opened {row : RunRow} (bounded : Bounded base db) (numbered : row.id = db.nextId)
    (running : row.status = .running) (joins : row.Joins db)
    (represented : ∀ ms, row.runTimeoutMs = some ms → (row.createdAt.after ms).isSome) : Bounded base (db.withRun row) := by
  have old {other : RunRow} (member : other ∈ db.runs) : other ∈ (db.withRun row).runs := List.mem_append_left _ member
  have new : row ∈ (db.withRun row).runs := List.mem_append_right _ (List.mem_singleton.mpr rfl)
  have cases' {other : RunRow} (member : other ∈ (db.withRun row).runs) : other ∈ db.runs ∨ other = row :=
    (List.mem_append.mp member).imp_right List.mem_singleton.mp
  constructor
  · exact Database.withRun_distinct bounded.distinct bounded.fresh numbered
  · intro other member
    rcases cases' member with before | rfl
    · exact Nat.lt_succ_of_lt (bounded.fresh other before)
    · rw [numbered]
      exact Nat.lt_succ_self _
  · intro timer listed
    rcases List.mem_append.mp listed with before | added
    · obtain ⟨other, member, rest⟩ := bounded.owned timer before
      exact ⟨other, old member, rest⟩
    · obtain ⟨own, -, limited⟩ := RunRow.mem_timeoutTimers.mp added
      exact ⟨row, new, own.symm, fun _ => limited⟩
  · intro other member timerId fireAt limited
    rcases cases' member with before | rfl
    · obtain ⟨timer, listed, rest⟩ := bounded.waits other before timerId fireAt limited
      exact ⟨timer, List.mem_append_left _ listed, rest⟩
    · refine ⟨⟨other.id, timerId, fireAt, .pending⟩, List.mem_append_right _ ?_, rfl, rfl, fun _ => rfl⟩
      exact RunRow.mem_timeoutTimers.mpr ⟨rfl, rfl, limited⟩
  · intro other member
    rcases cases' member with before | rfl
    · exact bounded.represented other before
    · exact represented
  · intro other member
    rcases cases' member with before | rfl
    · obtain ⟨head, first, rest⟩ := bounded.chain other before
      exact ⟨head, old first, rest⟩
    · cases joins with
      | root free unnamed head => exact ⟨other, new, head.symm, head, rfl, rfl⟩
      | child listed asks parent named head bound => exact ⟨other, new, head.symm, head, rfl, rfl⟩
      | next listed unnamed chain runTimeout deadline =>
        obtain ⟨head, first, id, own, headTimeout, headDeadline⟩ := bounded.chain _ listed
        exact ⟨head, old first, id.trans chain.symm, own, runTimeout.trans headTimeout, deadline.trans headDeadline⟩
  · intro other member parentRunId childId hangs named
    rcases cases' member with before | rfl
    · exact bounded.child other before parentRunId childId hangs named
    · cases joins with
      | root free unnamed head =>
        rw [unnamed] at named
        cases named
      | @child stored _ _ _ _ _ _ listed asks parent named' head bound =>
        rw [named'] at named
        rw [parent] at hangs
        cases named
        cases hangs
        exact ⟨stored, listed, rfl, _, _, _, _, _, asks, bound⟩
      | next listed unnamed chain runTimeout deadline =>
        rw [unnamed] at named
        cases named
  · intro stored listed kind event
    obtain ⟨other, member, rest⟩ := bounded.ended stored listed kind event
    exact ⟨other, old member, rest⟩
  · intro other member closed
    rcases cases' member with before | rfl
    · exact bounded.timedOut other before closed
    · rw [running] at closed
      cases closed
  · intro other member
    obtain ⟨row', listed, same⟩ := bounded.kept other member
    exact ⟨row', old listed, same⟩

/-- The timeouts are kept by all operations that fire no timer. -/
theorem bounded_invariant (base : Database) : TimerInvariant (Bounded base) where
  distinct _ bounded := bounded.distinct
  fresh _ bounded := bounded.fresh
  owned _ bounded _ := bounded.known
  steady _ _ bounded steady := bounded.steady steady
  started _ _ _ _ bounded apart exists' _ := bounded.started apart exists'
  opened _ _ bounded numbered running joins represented := bounded.opened numbered running joins represented

end Keeping

section Firing

variable {base db db' : Database} {runId : RunId} {timerId : String} {now : Instant}

/-- A timeout's timer is settled only when its run is closed. -/
theorem Bounded.setTimer (bounded : Bounded base db) (state : TimerState)
    (closed : isTimeoutTimerId timerId = true → ∀ row ∈ db.runs, row.id = runId → row.status ≠ .running) :
    Bounded base (db.setTimer runId timerId state) where
  distinct := bounded.distinct
  fresh := bounded.fresh
  owned timer listed := by
    obtain ⟨before, member, rfl⟩ := List.mem_map.mp listed
    have owned := bounded.owned before member
    split <;> exact owned
  waits row member other fireAt limited := by
    obtain ⟨timer, listed, key, at', pending⟩ := bounded.waits row member other fireAt limited
    refine ⟨_, List.mem_map_of_mem listed, ?_⟩
    split
    · next named =>
        refine ⟨key, at', fun running => ?_⟩
        have same := (TimerRow.isNamed_iff.mp named).symm.trans key
        cases same
        exact absurd running (closed (RunRow.timeoutAt_isTimeout limited) row member rfl)
    · exact ⟨key, at', pending⟩
  represented := bounded.represented
  chain := bounded.chain
  child := bounded.child
  ended := bounded.ended
  timedOut := bounded.timedOut
  kept := bounded.kept

/-- Events are appended, of which those that end a run by a timeout come late enough. -/
theorem Bounded.logged {rows : List EventRow} (bounded : Bounded base db) (ends : ∀ stored ∈ rows, ∀ kind,
      stored.event = .runTimedOut kind → ∃ row ∈ db.runs, row.id = stored.runId ∧ ∃ timeout, kind = some timeout ∧
        ∃ fireAt, row.timeoutAt (timeoutTimerId timeout) = some fireAt ∧ fireAt.ms ≤ stored.createdAt.ms) :
    Bounded base { db with events := db.events ++ rows } where
  distinct := bounded.distinct
  fresh := bounded.fresh
  owned := bounded.owned
  waits := bounded.waits
  represented := bounded.represented
  chain := bounded.chain
  child other member parentRunId childId hangs named := by
    obtain ⟨stored, listed, rest⟩ := bounded.child other member parentRunId childId hangs named
    exact ⟨stored, List.mem_append_left _ listed, rest⟩
  ended stored listed := (List.mem_append.mp listed).elim (bounded.ended stored) (ends stored)
  timedOut other member closed := by
    obtain ⟨stored, listed, rest⟩ := bounded.timedOut other member closed
    exact ⟨stored, List.mem_append_left _ listed, rest⟩
  kept := bounded.kept

/-- The event with which a timer's run times out. -/
theorem Bounded.timesOut {fireAt : Instant} {row : RunRow} (bounded : Bounded base db) (found : db.run? runId = some row)
    (limited : row.timeoutAt timerId = some fireAt) (late : fireAt.ms ≤ now.ms) :
    Bounded base (db.appended runId [.runTimedOut (some (timeoutKindOf timerId))] now) := by
  refine bounded.logged fun stored listed kind event => ?_
  rw [List.mem_singleton.mp (eventRows_mem listed).2.1] at event
  cases event
  have own := (eventRows_mem listed).1
  have created : stored.createdAt = now := by
    obtain ⟨entry, -, rfl⟩ := List.mem_map.mp listed
    rfl
  have same : timeoutTimerId (timeoutKindOf timerId) = timerId := by
    rcases isTimeoutTimerId_iff.mp (RunRow.timeoutAt_isTimeout limited) with rfl | rfl <;> rfl
  refine ⟨row, Database.run?_mem found, (Database.run?_id found).trans own.symm, _, rfl, fireAt, ?_, ?_⟩
  · rw [same]
    exact limited
  · rw [created]
    exact late

/-- The outcome for a timer that was due keeps the timeouts. -/
theorem Bounded.fired {timer : TimerRow} (bounded : Bounded base db) (listed : timer ∈ db.timers)
    (key : timer.key = (runId, timerId)) (late : timer.fireAt.ms ≤ now.ms)
    (outcome : FiringOutcome runId timerId timer.fireAt now db db') : Bounded base db' := by
  cases outcome with
  | fired apart found running =>
    have logged : Bounded base (db.appended runId [.timerFired timerId] now) := by
      refine bounded.logged fun stored listed kind event => ?_
      rw [List.mem_singleton.mp (eventRows_mem listed).2.1] at event
      cases event
    have marked : Bounded base ((db.appended runId [.timerFired timerId] now).setTimer runId timerId .fired) := by
      refine logged.setTimer .fired fun timeout => ?_
      rw [apart] at timeout
      cases timeout
    refine marked.steady ?_
    exact .ofRuns rfl rfl (Nat.le_succ _) ⟨[], (List.append_nil _).symm, fun _ new => absurd new List.not_mem_nil⟩
  | @timedOut row closed timeout found running steady shut =>
    obtain ⟨own, named⟩ : timer.runId = runId ∧ timer.timerId = timerId := ⟨congrArg Prod.fst key, congrArg Prod.snd key⟩
    obtain ⟨other, member, id, limited⟩ := bounded.owned timer listed
    have here := Database.mem_run? bounded.distinct member
    rw [id, own] at here
    rw [named] at limited
    exact ((bounded.timesOut here (limited timeout) late).steady steady).setTimer .fired fun _ => shut
  | cancelled closed =>
    refine bounded.setTimer .cancelled fun _ row member own => closed row ?_
    exact own ▸ Database.mem_run? bounded.distinct member

/-- The firing of a timer keeps the timeouts. -/
theorem Bounded.fires (bounded : Bounded base db) (coherent : db.Coherent none) (queueName : String) :
    Ensures (· = db) (fireNextOn queueName runId timerId now) fun _ => Bounded base := by
  refine (fireNextOn_outcome queueName coherent).mono (fun _ => id) ?_
  rintro _ _ (rfl | ⟨timer, due, outcome⟩)
  · exact bounded
  · obtain ⟨listed, key, -, late⟩ := Database.dueTimer?_some due
    exact bounded.fired listed key late outcome

end Firing

section Decisions

open Workflow

variable {H : Type} {commands : List WorkflowCommand}

/-- The timers of these commands are numbered. -/
def NumbersTimers (commands : List WorkflowCommand) : Prop :=
  ∀ timerId fireAt durationMs, .startTimer timerId fireAt durationMs ∈ commands →
    ∃ number : Nat, timerId = "timer-" ++ toString number

theorem NumbersTimers.append {more : List WorkflowCommand} (numbers : NumbersTimers commands)
    (others : ∀ command ∈ more, ∀ timerId fireAt durationMs, command ≠ .startTimer timerId fireAt durationMs) :
    NumbersTimers (commands ++ more) := by
  intro timerId fireAt durationMs listed
  rcases List.mem_append.mp listed with old | new
  · exact numbers timerId fireAt durationMs old
  · exact absurd rfl (others _ new timerId fireAt durationMs)

/-- A counted call starts at most the timer of its number. -/
theorem NumbersTimers.counted {before after : Ledger} {shape : CommandShape} {cancelled : Bool} {command : WorkflowCommand}
    {outcome : Option (Nat × Except JsValue JsValue)} (counted : before.Counted after shape cancelled command outcome)
    (named : ∀ timerId fireAt durationMs, command = .startTimer timerId fireAt durationMs →
      ∃ number : Nat, timerId = "timer-" ++ toString number) (numbers : NumbersTimers before.newCommands) :
    NumbersTimers after.newCommands := by
  rcases counted.discovered with ⟨pushed, -⟩ | ⟨kept, -⟩
  · intro timerId fireAt durationMs listed
    rw [pushed] at listed
    rcases List.mem_append.mp listed with old | new
    · exact numbers timerId fireAt durationMs old
    · exact named timerId fireAt durationMs (List.mem_singleton.mp new).symm
  · rw [kept]
    exact numbers

/-- A replay starts only timers that it numbers. -/
theorem replay_numbersTimers (replay : Replay) :
    ReplayInvariant replay fun world : ReplayWorld H => NumbersTimers world.host.ledger.newCommands where
  frame before after same numbers := same.ledger ▸ numbers
  step cancelled stepType input world _ numbers :=
    numbers.counted (step_counted replay cancelled stepType input world _ rfl) (fun _ _ _ other => nomatch other)
  sleep cancelled durationMs world _ numbers := by
    cases accepted : durationMs.sleepMs with
    | none => exact sleep_refused replay cancelled durationMs world accepted ▸ numbers
    | some duration =>
      obtain ⟨fireAt, counted⟩ := sleep_counted replay cancelled durationMs world _ rfl duration accepted
      refine numbers.counted counted fun timerId fireAt' durationMs' same => ?_
      cases same
      exact ⟨_, rfl⟩
  waitForSignal cancelled signalName world _ numbers := by
    obtain ⟨deliveries, rejected, -, -, same⟩ := waitForSignal_ledger replay cancelled signalName world
    rw [same]
    exact numbers
  startChild cancelled workflowType input options world _ numbers := by
    by_cases beyond : replay.options.childLimit < world.host.childSequence + 1
    · rw [startChild_refused replay cancelled workflowType input options world beyond]
      exact numbers
    · exact numbers.counted (startChild_counted replay cancelled workflowType input options world _ rfl beyond)
        (fun _ _ _ other => nomatch other)
  decidePatch patchId world numbers := by
    have asked := decidePatch_asked replay patchId world
    generalize (decidePatch replay patchId world).1.host.ledger = after at asked ⊢
    cases asked with
    | discovered undecided known issued unheld caughtUp =>
      refine numbers.append fun command listed timerId fireAt durationMs same => ?_
      rw [List.mem_singleton.mp listed] at same
      cases same
    | _ => exact numbers
  now world numbers := by
    have timed := now_timed replay world
    generalize (now replay world).1.host.ledger = after at timed ⊢
    cases timed with
    | replayed time recorded => exact numbers
    | discovered time past =>
      refine numbers.append fun command listed timerId fireAt durationMs same => ?_
      rw [List.mem_singleton.mp listed] at same
      cases same
  noteChoice running world numbers := by
    obtain ⟨choices, -, same⟩ := noteChoice_ledger replay running world
    rw [same]
    exact numbers
  compensationFailed index reason world numbers := by
    rcases compensationFailed_ledger replay index reason world with same | pushed
    · exact same ▸ numbers
    · rw [pushed]
      refine numbers.append fun command listed timerId fireAt durationMs same => ?_
      rw [List.mem_singleton.mp listed] at same
      cases same

/-- No number makes the id of a timeout. -/
theorem timer_apart (number : Nat) : isTimeoutTimerId ("timer-" ++ toString number) = false := by
  rw [Bool.eq_false_iff]
  intro timeout
  have first (other : String) (same : "timer-" ++ toString number = other) : other.toList.head? = some 't' := by
    rw [← same, String.toList_append]
    rfl
  rcases isTimeoutTimerId_iff.mp timeout with run | execution
  · exact absurd (first _ run) (by decide)
  · exact absurd (first _ execution) (by decide)

/-- What a decision records spares the ids of the timeouts. -/
theorem decision_sparesTimeouts {fuel : Nat} {replay : Replay} {handler : WorkflowHandler H} {input : JsValue}
    {decision : Decision} (made : runDecisionLoop fuel replay handler input = some (.ok decision))
    (queueName : Option String) (runId : RunId) (taskKey : String) (expectedSeq : Nat) :
    (EngineOp.recordWorkflowTaskResult queueName runId taskKey expectedSeq decision.commands).sparesTimeouts := by
  obtain ⟨final, replayed, decided⟩ := decision_replayed fuel replay handler input decision made
  have numbers : NumbersTimers final.host.newCommands := by
    refine (replay_numbersTimers replay).ends (fun next world due kept => ?_) replayed fun _ _ _ absent => nomatch absent
    rw [(release_sameLedger next world).ledger]
    exact kept
  have concluded : NumbersTimers (conclude replay final).2 := by
    unfold conclude
    dsimp only
    split
    · split
      · exact numbers.append fun command listed _ _ _ same => by cases (List.mem_singleton.mp listed).symm.trans same
      · exact numbers
    · split
      · intro timerId fireAt durationMs listed
        cases List.mem_singleton.mp listed
      · exact numbers
      · exact numbers.append fun command listed _ _ _ same => by cases (List.mem_singleton.mp listed).symm.trans same
      · exact numbers.append fun command listed _ _ _ same => by cases (List.mem_singleton.mp listed).symm.trans same
  intro timerId fireAt durationMs listed
  rw [decideFrom_commands replay final decision decided] at listed
  obtain ⟨number, rfl⟩ := concluded timerId fireAt durationMs listed
  exact timer_apart number

end Decisions

/-- A failed attempt is recorded in time, and a decision starts no timer under the id of a timeout. -/
def EngineOp.orderly (op : EngineOp) (db : Database) : Prop := op.inTime db ∧ op.sparesTimeouts

/-- Operations run one after the other from a database on. -/
inductive EngineRunFrom (meets : EngineOp → Database → Prop) (start : Database) : Database → Prop
  | refl : EngineRunFrom meets start start
  | step {db : Database} (run : EngineRunFrom meets start db) (op : EngineOp) (met : meets op db) (now : Instant)
      (budget : Option Nat) : EngineRunFrom meets start (op.run now budget db)

section Runs

variable {base start db later : Database}

theorem EngineOp.run_coherent {now : Instant} (op : EngineOp) (budget : Option Nat) (coherent : db.Coherent none)
    (inTime : op.inTime db) : (op.run now budget db).Coherent none := by
  have outcome : StepsOrStays now op db (op.run now budget db) := op.run_cases budget coherent inTime
  rcases outcome with same | step
  · rw [same]
    exact coherent
  · exact step.coherent coherent

theorem Bounded.run {now : Instant} (bounded : Bounded base db) (op : EngineOp) (budget : Option Nat)
    (coherent : db.Coherent none) (spares : op.sparesTimeouts) : Bounded base (op.run now budget db) :=
  op.run_holds (bounded_invariant base) spares bounded (fun queueName _ _ _ => bounded.fires coherent queueName) budget

theorem Bounded.along (run : EngineRunFrom EngineOp.orderly start later) (bounded : Bounded base start)
    (coherent : start.Coherent none) : Bounded base later ∧ later.Coherent none := by
  induction run with
  | refl => exact ⟨bounded, coherent⟩
  | step run op met now budget ih =>
    exact ⟨ih.1.run op budget ih.2 met.2, op.run_coherent budget ih.2 met.1⟩

theorem emptyDatabase_bounded : Bounded emptyDatabase emptyDatabase := by
  constructor
  all_goals simp [emptyDatabase]

theorem Bounded.ofRun (run : EngineRun EngineOp.orderly db) : Bounded emptyDatabase db ∧ db.Coherent none := by
  induction run with
  | empty => exact ⟨emptyDatabase_bounded, emptyDatabase_coherent⟩
  | step run op met now budget ih =>
    exact ⟨ih.1.run op budget ih.2 met.2, op.run_coherent budget ih.2 met.1⟩

/-- The runs that are there now are the ones to stay. -/
theorem Bounded.rebase (bounded : Bounded base db) : Bounded db db := { bounded with kept := fun row member => ⟨row, member, rfl⟩ }

/-- A tick after a run's deadline finds the timer. -/
theorem Bounded.due {row : RunRow} {timerId : String} {fireAt now : Instant} (bounded : Bounded base db)
    (member : row ∈ db.runs) (running : row.status = .running) (limited : row.timeoutAt timerId = some fireAt)
    (late : fireAt.ms ≤ now.ms) : (db.dueTimer? row.queueName row.id timerId now).isSome := by
  obtain ⟨timer, listed, key, at', pending⟩ := bounded.waits row member timerId fireAt limited
  rw [Database.dueTimer?, List.find?_isSome]
  refine ⟨timer, listed, ?_⟩
  have named := TimerRow.isNamed_iff.mpr key
  rw [named, pending running, at', Database.mem_run? bounded.distinct member]
  simpa using late

/-- The run that a client starts has the limits that were asked for. -/
theorem Bounded.starts {now : Instant} {namespaceId : Nat} {queueName : String} {input : StartRunInput} {budget : Option Nat}
    {created : RunRow} (bounded : Bounded base db)
    (found : ((EngineOp.startRun namespaceId queueName input).run now budget db).run? db.nextId = some created) :
    created.createdAt = now ∧ RunTimeoutLimits.Bound ⟨input.runTimeoutMs, input.executionTimeoutMs, none⟩ created := by
  have unborn : db.run? db.nextId = none :=
    Database.run?_none.mpr fun row member => Nat.ne_of_lt (bounded.fresh row member)
  have opens := @insertRunOn_opens db now namespaceId queueName input bounded.distinct bounded.fresh fun _ => bounded.known
  rcases withTransaction_cases opens.discard budget db rfl with ⟨fault, failed⟩ | ⟨answer, db', done, _, outcome⟩
  · rw [EngineOp.run, EngineOp.work, failed, unborn] at found
    cases found
  · rw [EngineOp.run, EngineOp.work, done] at found
    rcases outcome with rfl | ⟨runTimeoutMs, executionDeadline, bound, steady⟩
    · rw [unborn] at found
      cases found
    · obtain ⟨row, member, continues⟩ := steady.before (Database.run?_mem found)
      obtain ⟨id, -, -, -, -, runTimeout, deadline, createdAt⟩ := continues.columns
      have numbered : row.id = db.nextId := id.symm.trans (Database.run?_id found)
      rcases List.mem_append.mp member with old | new
      · exact absurd numbered (Nat.ne_of_lt (bounded.fresh row old))
      · rw [List.mem_singleton.mp new] at runTimeout deadline createdAt
        exact ⟨createdAt, bound.congr runTimeout deadline createdAt⟩

/-- In every state that operations reach, each run of a chain has the deadline and the run timeout
of its first run, a child's from the event that started it, and each limit has its timer, which is
pending while the run is open, so that a tick after the instant finds it; a run that timed out did
so by an event at or after that instant, and nothing follows the closing event of a log. A chain
that a client starts has the limits that were asked for, counted from the start of its first run. -/
theorem timeouts_bound (run : EngineRun EngineOp.orderly db) : (∀ row ∈ db.runs,
      (∃ head ∈ db.runs, head.id = row.firstRunId ∧ row.executionDeadline = head.executionDeadline ∧ row.runTimeoutMs = head.runTimeoutMs) ∧
      (∀ parentRunId childId, row.parentRunId = some parentRunId → row.parentChildId = some childId →
        ∃ stored ∈ db.storedEvents parentRunId, ∃ workflowType input policy runTimeoutMs executionTimeoutMs,
          stored.event = .childStarted childId workflowType input policy runTimeoutMs executionTimeoutMs ∧
            RunTimeoutLimits.Bound ⟨runTimeoutMs, executionTimeoutMs, none⟩ row) ∧
      (∀ ms, row.runTimeoutMs = some ms → ∃ fireAt, row.createdAt.after ms = some fireAt ∧ row.timeoutAt runTimeoutTimerId = some fireAt) ∧
      (∀ timerId fireAt, row.timeoutAt timerId = some fireAt → (∃ timer ∈ db.timers, timer.key = (row.id, timerId) ∧ timer.fireAt = fireAt ∧
          (row.status = .running → timer.state = .pending)) ∧
        ∀ now, row.status = .running → fireAt.ms ≤ now.ms → (db.dueTimer? row.queueName row.id timerId now).isSome) ∧
      (row.status = .timedOut → ∃ stored ∈ db.storedEvents row.id, ∃ kind fireAt,
        stored.event = .runTimedOut (some kind) ∧ row.timeoutAt (timeoutTimerId kind) = some fireAt ∧ fireAt.ms ≤ stored.createdAt.ms) ∧
      EndsOnce (db.base row.id) (db.storedEvents row.id)) ∧ ∀ namespaceId queueName input now budget created later,
      ((EngineOp.startRun namespaceId queueName input).run now budget db).run? db.nextId = some created →
      EngineRunFrom EngineOp.orderly ((EngineOp.startRun namespaceId queueName input).run now budget db) later →
      ∀ row ∈ later.runs, row.firstRunId = db.nextId → ∃ head ∈ later.runs, head.id = db.nextId ∧ head.createdAt = now ∧
        RunTimeoutLimits.Bound ⟨input.runTimeoutMs, input.executionTimeoutMs, none⟩ head ∧
          row.executionDeadline = head.executionDeadline ∧ row.runTimeoutMs = head.runTimeoutMs := by
  obtain ⟨bounded, coherent⟩ := Bounded.ofRun run
  constructor
  · intro row member
    have found := Database.mem_run? bounded.distinct member
    refine ⟨?_, fun parentRunId childId hangs named => ?_, fun ms timed => ?_, fun timerId fireAt limited => ⟨?_, ?_⟩,
      fun closed => ?_, coherent.endsOnce found⟩
    · obtain ⟨head, first, id, -, runTimeout, deadline⟩ := bounded.chain row member
      exact ⟨head, first, id, deadline, runTimeout⟩
    · obtain ⟨stored, listed, own, rest⟩ := bounded.child row member parentRunId childId hangs named
      exact ⟨stored, List.mem_filter.mpr ⟨listed, beq_iff_eq.mpr own⟩, rest⟩
    · obtain ⟨fireAt, date⟩ := Option.isSome_iff_exists.mp (bounded.represented row member ms timed)
      have apart : runTimeoutTimerId ≠ executionTimeoutTimerId := by decide
      refine ⟨fireAt, date, ?_⟩
      rw [RunRow.timeoutAt, if_neg apart, if_pos rfl, timed]
      exact date
    · exact bounded.waits row member timerId fireAt limited
    · exact fun now running late => bounded.due member running limited late
    · obtain ⟨stored, listed, own, kind, event⟩ := bounded.timedOut row member closed
      obtain ⟨other, member', own', timeout, rfl, fireAt, limited, late⟩ := bounded.ended stored listed kind event
      have same : other = row := by
        have here := Database.mem_run? bounded.distinct member'
        rw [own'.trans own, found] at here
        exact (Option.some.inj here).symm
      rw [same] at limited
      exact ⟨stored, List.mem_filter.mpr ⟨listed, beq_iff_eq.mpr own⟩, timeout, fireAt, event, limited, late⟩
  · intro namespaceId queueName input now budget created later found steps row member first
    obtain ⟨createdAt, bound⟩ := bounded.starts found
    have started : Bounded emptyDatabase ((EngineOp.startRun namespaceId queueName input).run now budget db) :=
      bounded.run _ budget coherent trivial
    have coherent' : ((EngineOp.startRun namespaceId queueName input).run now budget db).Coherent none :=
      EngineOp.run_coherent _ budget coherent trivial
    obtain ⟨later', -⟩ := started.rebase.along steps coherent'
    obtain ⟨head, member', id, -, runTimeout, deadline⟩ := later'.chain row member
    obtain ⟨created', listed, same⟩ := later'.kept created (Database.run?_mem found)
    have sameId : created'.id = created.id := (congrArg RunRow.id same :)
    have createdId : created'.id = db.nextId := sameId.trans (Database.run?_id found)
    obtain rfl : created' = head := by
      have one := Database.mem_run? later'.distinct listed
      have two := Database.mem_run? later'.distinct member'
      rw [createdId] at one
      rw [id, first, one] at two
      exact Option.some.inj two
    have sameCreated : created'.createdAt = created.createdAt := (congrArg RunRow.createdAt same :)
    have sameTimeout : created'.runTimeoutMs = created.runTimeoutMs := (congrArg RunRow.runTimeoutMs same :)
    have sameDeadline : created'.executionDeadline = created.executionDeadline := (congrArg RunRow.executionDeadline same :)
    have limits := bound.congr sameTimeout sameDeadline sameCreated
    exact ⟨created', member', createdId, sameCreated.trans createdAt, limits, deadline, runTimeout⟩

def afterOneSecond : Instant := ⟨1500, by decide, by decide⟩

/-- A run of one second, which a tick ends after it. -/
def expired : Database :=
  (EngineOp.fireNext "main" 0 "run-timeout").run afterOneSecond none
    ((EngineOp.startRun 0 "main" ⟨"order", .null, none, some (.finite 1000), some (.finite 5000)⟩).run .epoch none emptyDatabase)

theorem timeouts_bound_expired : ∃ row ∈ expired.runs, row.status = .timedOut ∧ ∃ stored ∈ expired.storedEvents row.id,
    ∃ kind fireAt, stored.event = .runTimedOut (some kind) ∧ row.timeoutAt (timeoutTimerId kind) = some fireAt ∧
      fireAt.ms ≤ stored.createdAt.ms := by
  have run : EngineRun EngineOp.orderly expired :=
    .step (.step .empty _ ⟨trivial, trivial⟩ .epoch none) _ ⟨trivial, trivial⟩ afterOneSecond none
  have closed : (expired.run? 0).map RunRow.status = some .timedOut := by decide +kernel
  obtain ⟨row, found, status⟩ := Option.map_eq_some_iff.mp closed
  have member := Database.run?_mem found
  exact ⟨row, member, status, ((timeouts_bound run).1 row member).2.2.2.2.1 status⟩

end Runs

end DurableExecution.Engine

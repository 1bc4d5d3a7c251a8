import DurableExecution.Engine.RunTimeouts
import Mathlib.Data.List.Sort

/-
This file models the ticks of timer schedulers, and proves that timers fire once, never early and
never after the end of their run.
-/

namespace DurableExecution.Engine

open Workflow (JsValue WorkflowEvent TimeoutKind Instant)
open Transaction

/-- The event that the firing of a timer records. -/
def isFiringOf (timerId : String) : WorkflowEvent → Bool
  | .timerFired id => id == timerId && !isTimeoutTimerId timerId
  | .runTimedOut (some kind) => timerId == timeoutTimerId kind
  | _ => false

/-- How often a timer fired, by the log of its run. -/
def Database.firings (db : Database) (key : RunId × String) : Nat :=
  db.events.countP fun stored => stored.runId == key.1 && isFiringOf key.2 stored.event

/-- The ids of runs are their own, and all are handed out, also those that timers name. -/
structure KnownTimers (db : Database) : Prop where
  distinct : (db.runs.map RunRow.id).Nodup
  fresh : ∀ row ∈ db.runs, row.id < db.nextId
  known : ∀ timer ∈ db.timers, timer.runId < db.nextId

/-- Every timer that is marked fired has its one event, as has the timer that is just firing, and
every event of a timer carries a reading at which it was due. The settled timers of an earlier
database stay. -/
structure FiredOnce (base : Database) (shown : Instant → Prop) (firing : Option (RunId × String)) (db : Database) : Prop
    extends KnownTimers db where
  keys : (db.timers.map TimerRow.key).Nodup
  counted : ∀ timer ∈ db.timers, db.firings timer.key = if timer.state = .fired ∨ firing = some timer.key then 1 else 0
  announced : ∀ stored ∈ db.events, ∀ timerId, isFiringOf timerId stored.event = true →
    ∃ timer ∈ db.timers, timer.key = (stored.runId, timerId) ∧ timer.fireAt.ms ≤ stored.createdAt.ms ∧ shown stored.createdAt
  pending : ∀ key, firing = some key → ∃ timer ∈ db.timers, timer.key = key ∧ timer.state = .pending
  settled : ∀ timer ∈ base.timers, timer.state ≠ .pending → timer ∈ db.timers

section Keeping

variable {base db db' : Database} {shown : Instant → Prop} {firing : Option (RunId × String)} {key : RunId × String}
  {runId : RunId} {timerId : String}

theorem isFiringOf_isTimerEvent {event : WorkflowEvent} (fires : isFiringOf timerId event = true) : isTimerEvent event = true := by
  cases event with
  | timerFired | runTimedOut => rfl
  | _ => cases fires

theorem timer_unique {one two : TimerRow} {timers : List TimerRow} (keys : (timers.map TimerRow.key).Nodup)
    (first : one ∈ timers) (second : two ∈ timers) (same : one.key = two.key) : one = two :=
  List.inj_on_of_nodup_map keys first second same

/-- A timer that was never started has no event. -/
theorem FiredOnce.unfired (fired : FiredOnce base shown firing db) (absent : ∀ timer ∈ db.timers, timer.key ≠ key) :
    db.firings key = 0 := by
  refine List.countP_eq_zero.mpr fun stored listed fires => ?_
  obtain ⟨own, fires⟩ := Bool.and_eq_true_iff.mp fires
  obtain ⟨timer, member, same, -⟩ := fired.announced stored listed key.2 fires
  exact absent timer member (same.trans (Prod.ext (beq_iff_eq.mp own) rfl))

/-- Events of no timer leave all counts. -/
theorem Database.firings_quiet {rows : List EventRow} (events : db'.events = db.events ++ rows)
    (quiet : ∀ stored ∈ rows, isTimerEvent stored.event = false) : db'.firings key = db.firings key := by
  have none : rows.countP (fun stored => stored.runId == key.1 && isFiringOf key.2 stored.event) = 0 := by
    refine List.countP_eq_zero.mpr fun stored listed fires => ?_
    have loud := isFiringOf_isTimerEvent (Bool.and_eq_true_iff.mp fires).2
    rw [quiet stored listed] at loud
    cases loud
  rw [Database.firings, events, List.countP_append, none, Nat.add_zero, Database.firings]

theorem KnownTimers.steady (known : KnownTimers db) (steady : Steady db db') : KnownTimers db' := by
  refine ⟨steady.ids ▸ known.distinct, fun row' member => ?_, fun timer listed => ?_⟩
  · obtain ⟨row, listed, continues⟩ := steady.before member
    rw [continues.columns.1]
    exact lt_of_lt_of_le (known.fresh row listed) steady.nextId
  · exact lt_of_lt_of_le (known.known timer (steady.timers ▸ listed)) steady.nextId

theorem KnownTimers.started {fireAt : Instant} (known : KnownTimers db) (exists' : (db.run? runId).isSome) :
    KnownTimers { db with timers := db.timers ++ [⟨runId, timerId, fireAt, .pending⟩] } := by
  obtain ⟨row, member, own⟩ := Database.run?_isSome.mp exists'
  refine ⟨known.distinct, known.fresh, fun timer listed => ?_⟩
  rcases List.mem_append.mp listed with old | new
  · exact known.known timer old
  · rw [List.mem_singleton.mp new]
    exact own ▸ known.fresh row member

theorem KnownTimers.opened {row : RunRow} (known : KnownTimers db) (numbered : row.id = db.nextId) : KnownTimers (db.withRun row) := by
  refine ⟨Database.withRun_distinct known.distinct known.fresh numbered, fun other member => ?_, fun timer listed => ?_⟩
  · rcases List.mem_append.mp member with old | new
    · exact Nat.lt_succ_of_lt (known.fresh other old)
    · rw [List.mem_singleton.mp new, numbered]
      exact Nat.lt_succ_self _
  · rcases List.mem_append.mp listed with old | new
    · exact Nat.lt_succ_of_lt (known.known timer old)
    · rw [(RunRow.mem_timeoutTimers.mp new).1, numbered]
      exact Nat.lt_succ_self _

theorem FiredOnce.steady (fired : FiredOnce base shown firing db) (steady : Steady db db') : FiredOnce base shown firing db' := by
  obtain ⟨rows, events, quiet⟩ := steady.events
  refine { fired.toKnownTimers.steady steady with
    keys := ?_, counted := fun timer listed => ?_, announced := fun stored listed id fires => ?_, pending := ?_, settled := ?_ }
  · rw [steady.timers]
    exact fired.keys
  · rw [Database.firings_quiet events quiet]
    exact fired.counted timer (steady.timers ▸ listed)
  · rw [events] at listed
    rw [steady.timers]
    rcases List.mem_append.mp listed with old | new
    · exact fired.announced stored old id fires
    · have loud := isFiringOf_isTimerEvent fires
      rw [quiet stored new] at loud
      cases loud
  · rw [steady.timers]
    exact fired.pending
  · rw [steady.timers]
    exact fired.settled

/-- Timers are added that wait, under new keys. -/
theorem FiredOnce.adds {added : List TimerRow} (fired : FiredOnce base shown firing db) (timers : db'.timers = db.timers ++ added)
    (events : db'.events = db.events) (known : KnownTimers db') (waiting : ∀ timer ∈ added, timer.state = .pending)
    (absent : ∀ timer ∈ added, ∀ other ∈ db.timers, other.key ≠ timer.key) (keys : (added.map TimerRow.key).Nodup) :
    FiredOnce base shown firing db' := by
  have count (key : RunId × String) : db'.firings key = db.firings key := by rw [Database.firings, events, Database.firings]
  refine ⟨known, ?_, fun timer listed => ?_, fun stored listed id fires => ?_, fun key same => ?_, fun timer listed done => ?_⟩
  · rw [timers, List.map_append, List.nodup_append]
    refine ⟨fired.keys, keys, fun one first two second same => ?_⟩
    obtain ⟨other, member, rfl⟩ := List.mem_map.mp first
    obtain ⟨timer, member', rfl⟩ := List.mem_map.mp second
    exact absent timer member' other member same
  · rw [timers] at listed
    rw [count]
    rcases List.mem_append.mp listed with old | new
    · exact fired.counted timer old
    · have unmarked : ¬ (timer.state = .fired ∨ firing = some timer.key) := by
        rintro (marked | same)
        · rw [waiting timer new] at marked
          cases marked
        · obtain ⟨other, member, key, -⟩ := fired.pending timer.key same
          exact absent timer new other member key
      rw [if_neg unmarked]
      exact fired.unfired (absent timer new)
  · rw [events] at listed
    obtain ⟨timer, member, rest⟩ := fired.announced stored listed id fires
    exact ⟨timer, timers ▸ List.mem_append_left _ member, rest⟩
  · obtain ⟨timer, member, rest⟩ := fired.pending key same
    exact ⟨timer, timers ▸ List.mem_append_left _ member, rest⟩
  · exact timers ▸ List.mem_append_left _ (fired.settled timer listed done)

theorem RunRow.timeoutTimers_keys (row : RunRow) : (row.timeoutTimers.map TimerRow.key).Nodup := by
  have apart : runTimeoutTimerId ≠ executionTimeoutTimerId := by decide
  unfold RunRow.timeoutTimers
  cases row.runTimeoutMs.bind fun ms => row.createdAt.after ms with
  | none => cases row.executionDeadline <;> simp
  | some fireAt => cases row.executionDeadline <;> simp [TimerRow.key, apart]

/-- Timers fire once under all operations that fire none. -/
theorem firedOnce_invariant (base : Database) (shown : Instant → Prop) (firing : Option (RunId × String)) :
    TimerInvariant (FiredOnce base shown firing) where
  distinct _ fired := fired.distinct
  fresh _ fired := fired.fresh
  owned _ fired := fired.known
  steady _ _ fired steady := fired.steady steady
  started db runId timerId fireAt fired apart exists' absent := by
    refine fired.adds rfl rfl (fired.started exists') (fun timer new => ?_) (fun timer new => ?_) ?_
    · rw [List.mem_singleton.mp new]
    · rw [List.mem_singleton.mp new]
      exact absent
    · simp
  opened db row fired numbered running joins represented := by
    refine fired.adds rfl rfl (fired.opened numbered) (fun timer new => ?_) (fun timer new other member same => ?_)
      row.timeoutTimers_keys
    · exact (RunRow.mem_timeoutTimers.mp new).2.1
    · have own : other.runId = timer.runId := congrArg Prod.fst same
      rw [(RunRow.mem_timeoutTimers.mp new).1, numbered] at own
      exact absurd own (Nat.ne_of_lt (fired.known other member))

end Keeping

section Firing

variable {base db : Database} {shown : Instant → Prop} {firing : Option (RunId × String)} {runId : RunId} {timerId : String}
  {timer : TimerRow} {now : Instant}

/-- The event of a timer that is due. -/
theorem FiredOnce.records {event : WorkflowEvent} (fired : FiredOnce base shown none db) (listed : timer ∈ db.timers)
    (pending : timer.state = .pending) (key : timer.key = (runId, timerId)) (due : timer.fireAt.ms ≤ now.ms) (reading : shown now)
    (own : ∀ id, isFiringOf id event = true ↔ id = timerId) :
    FiredOnce base shown (some (runId, timerId)) (db.appended runId [event] now) where
  distinct := fired.distinct
  fresh := fired.fresh
  known := fired.known
  keys := fired.keys
  counted other member := by
    have count : (db.appended runId [event] now).firings other.key =
        db.firings other.key + if other.key = (runId, timerId) then 1 else 0 := by
      simp only [Database.firings, Database.appended, List.countP_append]
      congr 1
      simp only [eventRows, List.zipIdx_cons, List.zipIdx_nil, List.map_cons, List.map_nil, List.countP_singleton,
        Bool.and_eq_true, beq_iff_eq, own]
      refine if_congr ⟨fun both => Prod.ext both.1.symm both.2, fun same => ?_⟩ rfl rfl
      rw [same]
      exact ⟨rfl, rfl⟩
    have before := fired.counted other member
    rw [count, before]
    by_cases same : other.key = (runId, timerId)
    · have here : other = timer := timer_unique fired.keys member listed (same.trans key.symm)
      rw [here, pending, key]
      simp
    · simp [same, Ne.symm same]
  announced stored listed' id fires := by
    rcases List.mem_append.mp listed' with old | new
    · exact fired.announced stored old id fires
    · obtain ⟨run, event', -⟩ := eventRows_mem new
      rw [List.mem_singleton.mp event'] at fires
      have created : stored.createdAt = now := by
        obtain ⟨entry, -, rfl⟩ := List.mem_map.mp new
        rfl
      rw [(own id).mp fires, run, created]
      exact ⟨timer, listed, key, due, reading⟩
  pending other same := by
    cases same
    exact ⟨timer, listed, key, pending⟩
  settled := fired.settled

/-- The timer that fired, or that came too late, is marked. -/
theorem FiredOnce.marks {state : TimerState} (fired : FiredOnce base shown firing db) (listed : timer ∈ db.timers)
    (pending : timer.state = .pending) (key : timer.key = (runId, timerId))
    (outcome : firing = some (runId, timerId) ∧ state = .fired ∨ firing = none ∧ state = .cancelled) :
    FiredOnce base shown none (db.setTimer runId timerId state) where
  distinct := fired.distinct
  fresh := fired.fresh
  known other member := by
    obtain ⟨before, listed', rfl⟩ := List.mem_map.mp member
    have known := fired.known before listed'
    split <;> exact known
  keys := by
    have same : (db.setTimer runId timerId state).timers.map TimerRow.key = db.timers.map TimerRow.key := by
      simp only [Database.setTimer, List.map_map]
      refine List.map_congr_left fun other _ => ?_
      simp only [Function.comp_apply]
      split <;> rfl
    rw [same]
    exact fired.keys
  counted other member := by
    obtain ⟨before, listed', rfl⟩ := List.mem_map.mp member
    have count := fired.counted before listed'
    have events : ∀ key, (db.setTimer runId timerId state).firings key = db.firings key := fun _ => rfl
    split
    · next named =>
        have same := TimerRow.isNamed_iff.mp named
        obtain rfl : before = timer := timer_unique fired.keys listed' listed (same.trans key.symm)
        rw [events]
        change db.firings before.key = _
        rw [count, pending, same]
        rcases outcome with ⟨rfl, rfl⟩ | ⟨rfl, rfl⟩ <;> simp
    · next unnamed =>
        have apart : firing ≠ some before.key := by
          rcases outcome with ⟨rfl, -⟩ | ⟨rfl, -⟩
          · exact fun same => unnamed (TimerRow.isNamed_iff.mpr (Option.some.inj same).symm)
          · exact fun same => nomatch same
        rw [events, count]
        simp [apart]
  announced stored member id fires := by
    obtain ⟨other, listed', key', rest⟩ := fired.announced stored member id fires
    refine ⟨_, List.mem_map_of_mem listed', ?_⟩
    split <;> exact ⟨key', rest⟩
  pending _ none' := nomatch none'
  settled other member done := by
    have before := fired.settled other member done
    refine List.mem_map.mpr ⟨other, before, if_neg fun named => ?_⟩
    have same := TimerRow.isNamed_iff.mp named
    obtain rfl : other = timer := timer_unique fired.keys before listed (same.trans key.symm)
    exact done pending

theorem isFiringOf_timedOut (timeout : isTimeoutTimerId timerId = true) (id : String) :
    isFiringOf id (.runTimedOut (some (timeoutKindOf timerId))) = true ↔ id = timerId := by
  have same : timeoutTimerId (timeoutKindOf timerId) = timerId := by
    rcases isTimeoutTimerId_iff.mp timeout with rfl | rfl <;> rfl
  simp [isFiringOf, same]

theorem isFiringOf_timerFired (apart : isTimeoutTimerId timerId = false) (id : String) :
    isFiringOf id (.timerFired timerId) = true ↔ id = timerId := by
  simp only [isFiringOf, Bool.and_eq_true, beq_iff_eq, Bool.not_eq_true']
  constructor
  · exact fun ⟨same, _⟩ => same.symm
  · rintro rfl
    exact ⟨rfl, apart⟩

/-- The outcome of a round of `fireNext` for a timer that was due. -/
theorem FiredOnce.fires {db' : Database} (fired : FiredOnce base shown none db) (listed : timer ∈ db.timers)
    (pending : timer.state = .pending) (key : timer.key = (runId, timerId)) (late : timer.fireAt.ms ≤ now.ms) (reading : shown now)
    (outcome : FiringOutcome runId timerId timer.fireAt now db db') : FiredOnce base shown none db' := by
  cases outcome with
  | fired apart found running =>
    have recorded := fired.records listed pending key late reading (isFiringOf_timerFired apart)
    refine (recorded.marks listed pending key (.inl ⟨rfl, rfl⟩)).steady ?_
    exact .ofRuns rfl rfl (Nat.le_succ _) ⟨[], (List.append_nil _).symm, fun _ new => absurd new List.not_mem_nil⟩
  | timedOut timeout found running steady shut =>
    have recorded := fired.records listed pending key late reading (isFiringOf_timedOut timeout)
    exact (recorded.steady steady).marks (steady.timers ▸ listed) pending key (.inl ⟨rfl, rfl⟩)
  | cancelled closed => exact fired.marks listed pending key (.inr ⟨rfl, rfl⟩)

/-- Without a failing statement, a timer of a run that is not running is cancelled. -/
theorem fireNextOn_cancels {queueName : String} (due : db.dueTimer? queueName runId timerId now = some timer)
    (closed : ∀ row, db.run? runId = some row → row.status ≠ .running) :
    withTransaction (fireNextOn queueName runId timerId now) none db = (.ok (), db.setTimer runId timerId .cancelled) := by
  have named : timer.timerId = timerId := congrArg Prod.snd (Database.dueTimer?_some due).2.1
  have shut : ((db.run? runId).map fun run => isTerminalState run.status).getD true = true := by
    cases found : db.run? runId with
    | none => rfl
    | some row => exact (isTerminalState_iff _).mpr (closed row found)
  have locks : lockRunWithParent runId ⟨db, none⟩ = .ok (db.run? runId, ⟨db, none⟩) := by
    unfold lockRunWithParent
    rw [select_answers]
    cases (db.run? runId).bind RunRow.parentRunId with
    | none => rfl
    | some parent => rfl
  have stays : timeOutRunOn now runId timerId ⟨db, none⟩ = .ok (false, ⟨db, none⟩) := by
    unfold timeOutRunOn
    rw [bind_answers locks, if_pos shut]
    rfl
  have answered : fireNextOn queueName runId timerId now ⟨db, none⟩ = .ok ((), ⟨db.setTimer runId timerId .cancelled, none⟩) := by
    unfold fireNextOn
    rw [select_answers, due]
    dsimp only
    split
    · rw [bind_answers stays]
      rfl
    · have other : ((db.run? runId).filter fun row => row.status == .running) = none := by
        cases found : db.run? runId with
        | none => rfl
        | some row => simp [closed row found]
      rw [select_answers, other]
      rfl
  exact withTransaction_commits answered

end Firing

/-- A timer scheduler with its monotonic clock, and the reading that its tick works with. -/
structure Scheduler where
  queueName : String
  highWater : Option Instant
  ticking : Option Instant

/-- `createMonotonicClock(source).now()`. -/
def Scheduler.now (scheduler : Scheduler) (reading : Instant) : Instant × Scheduler :=
  match scheduler.highWater with
  | some high => if reading.ms < high.ms then (high, scheduler) else (reading, { scheduler with highWater := some reading })
  | none => (reading, { scheduler with highWater := some reading })

/-- A pending timer of this queue whose time has come. -/
def Database.isDue (db : Database) (queueName : String) (now : Instant) (timer : TimerRow) : Bool :=
  timer.state == .pending && decide (timer.fireAt.ms ≤ now.ms) &&
    (db.run? timer.runId).any fun row => row.queueName == queueName

/-- `order by fire_at, id`, by the ids that the timers got. -/
def TimerRow.noLater (ids : RunId × String → Nat) (one two : TimerRow) : Prop :=
  one.fireAt.ms < two.fireAt.ms ∨ one.fireAt.ms = two.fireAt.ms ∧ ids one.key ≤ ids two.key

instance (ids : RunId × String → Nat) : DecidableRel (TimerRow.noLater ids) :=
  fun one two => inferInstanceAs (Decidable (one.fireAt.ms < two.fireAt.ms ∨ one.fireAt.ms = two.fireAt.ms ∧ _))

/-- `order by fire_at, id limit 1 for update skip locked`. -/
def Database.nextDue? (db : Database) (ids : RunId × String → Nat) (locked : RunId × String → Bool) (queueName : String)
    (now : Instant) : Option TimerRow :=
  ((db.timers.filter fun timer => db.isDue queueName now timer && !locked timer.key).insertionSort (TimerRow.noLater ids)).head?

/-- The database, the schedulers, and all readings that their clocks have shown. -/
structure TimerWorld where
  db : Database
  schedulers : Nat → Scheduler
  readings : List Instant

/-- What schedulers do, and what the engine does beside them. -/
inductive TimerOp where
  | engine (op : EngineOp) (now : Instant) (budget : Option Nat)
  | begins (scheduler : Nat) (reading : Instant)
  | fires (scheduler : Nat) (locked : RunId × String → Bool) (budget : Option Nat)
  | ends (scheduler : Nat)
  | restarts (scheduler : Nat) (queueName : String)

/-- A tick goes on with its reading until nothing is due, a firing fails or its batch is full. -/
def TimerOp.run (ids : RunId × String → Nat) : TimerOp → TimerWorld → TimerWorld
  | .engine op now budget, world => { world with db := op.run now budget world.db }
  | .begins scheduler reading, world =>
    let (now, state) := (world.schedulers scheduler).now reading
    { world with
      schedulers := Function.update world.schedulers scheduler { state with ticking := some now }
      readings := reading :: world.readings }
  | .fires scheduler locked budget, world =>
    let state := world.schedulers scheduler
    match state.ticking with
    | none => world
    | some now =>
      let ended := Function.update world.schedulers scheduler { state with ticking := none }
      match world.db.nextDue? ids locked state.queueName now with
      | none => { world with schedulers := ended }
      | some timer =>
        match withTransaction (fireNextOn state.queueName timer.runId timer.timerId now) budget world.db with
        | (.ok _, db) => { world with db := db }
        | (.error _, db) => { world with db := db, schedulers := ended }
  | .ends scheduler, world =>
    { world with schedulers := Function.update world.schedulers scheduler { world.schedulers scheduler with ticking := none } }
  | .restarts scheduler queueName, world =>
    { world with schedulers := Function.update world.schedulers scheduler ⟨queueName, none, none⟩ }

/-- Timers are fired by schedulers, and the engine's operations are in order. -/
def TimerOp.orderly (op : TimerOp) (world : TimerWorld) : Prop :=
  match op with
  | .engine op _ _ => op.orderly world.db ∧ ∀ queueName runId timerId, op ≠ .fireNext queueName runId timerId
  | _ => True

/-- Schedulers and the engine at work from an empty database. -/
inductive TimerRun (ids : RunId × String → Nat) : TimerWorld → Prop
  | empty (queueNames : Nat → String) : TimerRun ids ⟨emptyDatabase, fun scheduler => ⟨queueNames scheduler, none, none⟩, []⟩
  | step {world : TimerWorld} (run : TimerRun ids world) (op : TimerOp) (met : op.orderly world) : TimerRun ids (op.run ids world)

section Runs

variable {base : Database} {shown : Instant → Prop} {ids : RunId × String → Nat} {world : TimerWorld}

/-- What a reachable world looks like, beside an earlier database of it. -/
structure TimersInOrder (base : Database) (world : TimerWorld) : Prop where
  fired : FiredOnce base (· ∈ world.readings) none world.db
  bounded : Bounded base world.db
  coherent : world.db.Coherent none
  clocks : ∀ scheduler now, (world.schedulers scheduler).highWater = some now ∨
    (world.schedulers scheduler).ticking = some now → now ∈ world.readings

theorem FiredOnce.shows {shown' : Instant → Prop} {db : Database} (fired : FiredOnce base shown none db)
    (more : ∀ reading, shown reading → shown' reading) : FiredOnce base shown' none db := by
  refine { fired with announced := fun stored listed id fires => ?_ }
  obtain ⟨timer, member, key, due, reading⟩ := fired.announced stored listed id fires
  exact ⟨timer, member, key, due, more _ reading⟩

instance : Std.Total (TimerRow.noLater ids) where
  total one two := by
    unfold TimerRow.noLater
    omega

instance : IsTrans TimerRow (TimerRow.noLater ids) where
  trans one two three first second := by
    unfold TimerRow.noLater at *
    omega

/-- The timer that a tick picks is the earliest of those that are due and that nobody locks. -/
theorem Database.nextDue?_least {db : Database} {locked : RunId × String → Bool} {queueName : String} {now : Instant}
    {timer : TimerRow} (next : db.nextDue? ids locked queueName now = some timer) :
    timer ∈ db.timers ∧ db.isDue queueName now timer = true ∧ locked timer.key = false ∧
      ∀ other ∈ db.timers, db.isDue queueName now other = true → locked other.key = false → timer.noLater ids other := by
  unfold Database.nextDue? at next
  obtain ⟨rest, sorted⟩ := List.head?_eq_some_iff.mp next
  have inOrder := List.pairwise_insertionSort (TimerRow.noLater ids)
    (db.timers.filter fun timer => db.isDue queueName now timer && !locked timer.key)
  have free (other : TimerRow) : other ∈ timer :: rest ↔
      other ∈ db.timers ∧ db.isDue queueName now other = true ∧ locked other.key = false := by
    rw [← sorted, List.mem_insertionSort, List.mem_filter, Bool.and_eq_true, Bool.not_eq_true']
  rw [sorted, List.pairwise_cons] at inOrder
  obtain ⟨listed, due, unlocked⟩ := (free timer).mp List.mem_cons_self
  refine ⟨listed, due, unlocked, fun other member due' free' => ?_⟩
  rcases List.mem_cons.mp ((free other).mpr ⟨member, due', free'⟩) with rfl | after
  · exact .inr ⟨rfl, le_rfl⟩
  · exact inOrder.1 other after

/-- The picked timer is the one that `fireNext` finds by its key. -/
theorem FiredOnce.dueTimer? {db : Database} {queueName : String} {now : Instant} {timer : TimerRow}
    (fired : FiredOnce base shown none db) (listed : timer ∈ db.timers) (due : db.isDue queueName now timer = true) :
    db.dueTimer? queueName timer.runId timer.timerId now = some timer := by
  simp only [Database.isDue, Bool.and_eq_true, beq_iff_eq, decide_eq_true_eq] at due
  have found : (db.dueTimer? queueName timer.runId timer.timerId now).isSome := by
    rw [Database.dueTimer?, List.find?_isSome]
    refine ⟨timer, listed, ?_⟩
    rw [TimerRow.isNamed_iff.mpr rfl, due.1.1, due.2]
    simpa using due.1.2
  obtain ⟨other, same⟩ := Option.isSome_iff_exists.mp found
  obtain ⟨member, key, -⟩ := Database.dueTimer?_some same
  rw [same, timer_unique fired.keys member listed key]

/-- A clock shows a reading of its own, or one that it has shown. -/
theorem Scheduler.now_cases (scheduler : Scheduler) (reading : Instant) :
    ((scheduler.now reading).1 = reading ∨ scheduler.highWater = some (scheduler.now reading).1) ∧
      ∀ now, (scheduler.now reading).2.highWater = some now → now = reading ∨ scheduler.highWater = some now := by
  unfold Scheduler.now
  cases high : scheduler.highWater with
  | none =>
    refine ⟨.inl rfl, fun now same => ?_⟩
    cases same
    exact .inl rfl
  | some last =>
    dsimp only
    split
    · exact ⟨.inr rfl, fun now same => .inr (high.symm.trans same)⟩
    · refine ⟨.inl rfl, fun now same => ?_⟩
      cases same
      exact .inl rfl

/-- One scheduler's state changes, and its readings have been shown. -/
theorem TimersInOrder.clocked (order : TimersInOrder base world) {scheduler : Nat} {state : Scheduler}
    {readings : List Instant} (more : ∀ reading ∈ world.readings, reading ∈ readings)
    (shows : ∀ now, state.highWater = some now ∨ state.ticking = some now → now ∈ readings) :
    TimersInOrder base ⟨world.db, Function.update world.schedulers scheduler state, readings⟩ := by
  refine ⟨order.fired.shows more, order.bounded, order.coherent, fun other now same => ?_⟩
  dsimp only at same
  by_cases here : other = scheduler
  · subst here
    rw [Function.update_self] at same
    exact shows now same
  · rw [Function.update_of_ne here] at same
    exact more now (order.clocks other now same)

/-- The tick of a scheduler ends. -/
theorem TimersInOrder.ends (order : TimersInOrder base world) (scheduler : Nat) :
    TimersInOrder base ((TimerOp.ends scheduler).run ids world) := by
  refine order.clocked (fun _ => id) fun now same => ?_
  exact order.clocks scheduler now (same.imp_right fun none' => nomatch none')

/-- What a `fires` step of a tick does: nothing is due for its reading, its transaction fails, or
the picked timer meets its outcome. -/
inductive FiresOrEnds (ids : RunId × String → Nat) (scheduler : Nat) (locked : RunId × String → Bool) (world : TimerWorld) :
    TimerWorld → Prop
  | idle (none' : (world.schedulers scheduler).ticking = none) : FiresOrEnds ids scheduler locked world world
  | ends : FiresOrEnds ids scheduler locked world ((TimerOp.ends scheduler).run ids world)
  | fires {now : Instant} {timer : TimerRow} {db : Database} (ticking : (world.schedulers scheduler).ticking = some now)
      (next : world.db.nextDue? ids locked (world.schedulers scheduler).queueName now = some timer)
      (outcome : FiringOutcome timer.runId timer.timerId timer.fireAt now world.db db) (coherent : db.Coherent none) :
      FiresOrEnds ids scheduler locked world { world with db := db }

theorem TimersInOrder.fires_cases (order : TimersInOrder base world) (scheduler : Nat) (locked : RunId × String → Bool)
    (budget : Option Nat) : FiresOrEnds ids scheduler locked world ((TimerOp.fires scheduler locked budget).run ids world) := by
  simp only [TimerOp.run]
  cases ticking : (world.schedulers scheduler).ticking with
  | none => exact .idle ticking
  | some now =>
    dsimp only
    cases next : world.db.nextDue? ids locked (world.schedulers scheduler).queueName now with
    | none => exact .ends
    | some timer =>
      obtain ⟨listed, due, -⟩ := Database.nextDue?_least next
      have picked := fireNextOn_picked order.coherent (order.fired.dueTimer? listed due)
      dsimp only
      rcases withTransaction_cases picked budget world.db rfl with ⟨fault, failed⟩ | ⟨_, db', done, outcome⟩
      · rw [failed]
        exact .ends
      · let firing := EngineOp.fireNext (world.schedulers scheduler).queueName timer.runId timer.timerId
        have coherent : (firing.run now budget world.db).Coherent none := firing.run_coherent budget order.coherent trivial
        rw [EngineOp.run, EngineOp.work, done] at coherent
        rw [done]
        exact .fires ticking next outcome coherent

/-- Every step keeps the timers in order. -/
theorem TimersInOrder.run (order : TimersInOrder base world) (op : TimerOp) (met : op.orderly world) :
    TimersInOrder base (op.run ids world) := by
  cases op with
  | engine op now budget =>
    obtain ⟨⟨inTime, spares⟩, apart⟩ := met
    refine ⟨?_, order.bounded.run op budget order.coherent spares, op.run_coherent budget order.coherent inTime, order.clocks⟩
    refine op.run_holds (firedOnce_invariant base _ none) spares order.fired (fun queueName runId timerId same => ?_) budget
    exact absurd same (apart queueName runId timerId)
  | begins scheduler reading =>
    obtain ⟨served, high⟩ := (world.schedulers scheduler).now_cases reading
    have shown (now : Instant) (highWater : (world.schedulers scheduler).highWater = some now) : now ∈ reading :: world.readings :=
      List.mem_cons_of_mem _ (order.clocks scheduler now (.inl highWater))
    refine order.clocked (fun _ => List.mem_cons_of_mem _) fun now same => ?_
    rcases same with last | ticking
    · rcases high now last with rfl | before
      · exact List.mem_cons_self
      · exact shown now before
    · have same : ((world.schedulers scheduler).now reading).1 = now := Option.some.inj ticking
      rw [same] at served
      rcases served with rfl | before
      · exact List.mem_cons_self
      · exact shown now before
  | fires scheduler locked budget =>
    generalize ran : (TimerOp.fires scheduler locked budget).run ids world = later
    have outcome : FiresOrEnds ids scheduler locked world later := ran ▸ order.fires_cases scheduler locked budget
    cases outcome with
    | idle => exact order
    | ends => exact order.ends scheduler
    | @fires now timer db ticking next outcome coherent =>
      obtain ⟨listed, due, -⟩ := Database.nextDue?_least next
      obtain ⟨-, key, pending, late⟩ := Database.dueTimer?_some (order.fired.dueTimer? listed due)
      have reading := order.clocks scheduler now (.inr ticking)
      exact ⟨order.fired.fires listed pending key late reading outcome, order.bounded.fired listed key late outcome,
        coherent, order.clocks⟩
  | ends scheduler => exact order.ends scheduler
  | restarts scheduler queueName =>
    refine order.clocked (fun _ => id) fun now same => ?_
    rcases same with none' | none' <;> cases none'

/-- All timers stay as they are, and no event of a timer is added. -/
structure Unfired (base db : Database) : Prop extends KnownTimers db where
  counted : ∀ key, db.firings key = base.firings key
  stays : ∀ timer ∈ base.timers, timer ∈ db.timers

/-- Operations that fire no timer leave the timers that there are. -/
theorem unfired_invariant (base : Database) : TimerInvariant (Unfired base) where
  distinct _ unfired := unfired.distinct
  fresh _ unfired := unfired.fresh
  owned _ unfired := unfired.known
  steady db db' unfired steady := by
    obtain ⟨rows, events, quiet⟩ := steady.events
    refine ⟨unfired.toKnownTimers.steady steady, fun key => ?_, ?_⟩
    · exact (Database.firings_quiet events quiet).trans (unfired.counted key)
    · rw [steady.timers]
      exact unfired.stays
  started _ _ _ _ unfired _ exists' _ :=
    ⟨unfired.started exists', unfired.counted, fun timer listed => List.mem_append_left _ (unfired.stays timer listed)⟩
  opened _ _ unfired numbered _ _ _ :=
    ⟨unfired.opened numbered, unfired.counted, fun timer listed => List.mem_append_left _ (unfired.stays timer listed)⟩

/-- Worlds that schedulers and the engine reach from another one. -/
inductive TimerRunFrom (ids : RunId × String → Nat) (start : TimerWorld) : TimerWorld → Prop
  | refl : TimerRunFrom ids start start
  | step {world : TimerWorld} (run : TimerRunFrom ids start world) (op : TimerOp) (met : op.orderly world) :
    TimerRunFrom ids start (op.run ids world)

/-- A tick of a scheduler whose reading has reached an instant handles its timer. -/
inductive TickFires (ids : RunId × String → Nat) (world : TimerWorld) (op : TimerOp) (db : Database) : Prop
  | fires {scheduler : Nat} {locked : RunId × String → Bool} {budget : Option Nat} {now : Instant} {timer : TimerRow}
      (fires : op = .fires scheduler locked budget) (ticking : (world.schedulers scheduler).ticking = some now)
      (listed : timer ∈ world.db.timers) (pending : timer.state = .pending) (late : timer.fireAt.ms ≤ now.ms)
      (outcome : FiringOutcome timer.runId timer.timerId timer.fireAt now world.db db) : TickFires ids world op db

/-- A step leaves all timers and their events, or it is a tick that handles a timer. -/
theorem TimersInOrder.step_cases (order : TimersInOrder base world) (op : TimerOp) (met : op.orderly world) :
    Unfired world.db (op.run ids world).db ∨ TickFires ids world op (op.run ids world).db := by
  have stays : Unfired world.db world.db := ⟨order.fired.toKnownTimers, fun _ => rfl, fun _ => id⟩
  cases op with
  | engine op now budget =>
    obtain ⟨⟨-, spares⟩, apart⟩ := met
    refine .inl (op.run_holds (unfired_invariant world.db) spares stays (fun queueName runId timerId same => ?_) budget)
    exact absurd same (apart queueName runId timerId)
  | fires scheduler locked budget =>
    generalize ran : (TimerOp.fires scheduler locked budget).run ids world = later
    have outcome : FiresOrEnds ids scheduler locked world later := ran ▸ order.fires_cases scheduler locked budget
    cases outcome with
    | idle => exact .inl stays
    | ends => exact .inl stays
    | fires ticking next outcome coherent =>
      obtain ⟨listed, due, -⟩ := Database.nextDue?_least next
      obtain ⟨-, -, pending, late⟩ := Database.dueTimer?_some (order.fired.dueTimer? listed due)
      exact .inr (.fires rfl ticking listed pending late outcome)
  | begins | ends | restarts => exact .inl stays

theorem TimerRun.inOrder (run : TimerRun ids world) : TimersInOrder world.db world := by
  have order : TimersInOrder emptyDatabase world := by
    induction run with
    | empty queueNames =>
      refine ⟨⟨⟨List.nodup_nil, ?_, ?_⟩, List.nodup_nil, ?_, ?_, ?_, ?_⟩, emptyDatabase_bounded, emptyDatabase_coherent, ?_⟩
      all_goals simp [emptyDatabase]
    | step run op met ih => exact ih.run op met
  exact { order with
    fired := { order.fired with settled := fun timer listed _ => listed }
    bounded := order.bounded.rebase }

theorem TimersInOrder.along {later : TimerWorld} (run : TimerRunFrom ids world later) (order : TimersInOrder base world) :
    TimersInOrder base later := by
  induction run with
  | refl => exact order
  | step run op met ih => exact ih.run op met

/-- A timer that is due later, by the same reading, was due before when it was there. -/
theorem TimersInOrder.wasDue {later : Database} {queueName : String} {now : Instant} {timer : TimerRow}
    (order : TimersInOrder world.db world) (bounded : Bounded world.db later) (listed : timer ∈ world.db.timers)
    (due : later.isDue queueName now timer = true) : world.db.isDue queueName now timer = true := by
  simp only [Database.isDue, Bool.and_eq_true, beq_iff_eq, decide_eq_true_eq] at due ⊢
  obtain ⟨row, member, own, -⟩ := order.bounded.owned timer listed
  obtain ⟨row', member', same⟩ := bounded.kept row member
  have sameId : row'.id = row.id := (congrArg RunRow.id same :)
  have sameQueue : row'.queueName = row.queueName := (congrArg RunRow.queueName same :)
  have now' := Database.mem_run? order.bounded.distinct member
  have later' := Database.mem_run? bounded.distinct member'
  rw [own] at now'
  rw [sameId, own] at later'
  rw [later', Option.any_some, sameQueue] at due
  rw [now', Option.any_some]
  exact due

/-- A tick cancels a timer of a run that is not running, where no statement fails. -/
theorem TimersInOrder.cancels (order : TimersInOrder base world) {scheduler : Nat} {locked : RunId × String → Bool} {now : Instant}
    {timer : TimerRow} (ticking : (world.schedulers scheduler).ticking = some now)
    (next : world.db.nextDue? ids locked (world.schedulers scheduler).queueName now = some timer)
    (closed : ∀ row, world.db.run? timer.runId = some row → row.status ≠ .running) :
    ((TimerOp.fires scheduler locked none).run ids world).db = world.db.setTimer timer.runId timer.timerId .cancelled := by
  obtain ⟨listed, due, -⟩ := Database.nextDue?_least next
  have cancels := fireNextOn_cancels (order.fired.dueTimer? listed due) closed
  simp only [TimerOp.run, ticking, next, cancels]

/-- In every world that schedulers and the engine reach, a timer is marked fired exactly when its
event is in the log, which then is there once, with a reading of a clock at which it was due. No
step changes a settled timer, and a step that changes a timer or adds its event is a tick that
handles a timer that is due by its reading, which cancels it when its run is not running. Of the
timers that are picked by one reading, a later one precedes an earlier one only if it was locked or
not there when the earlier one was picked. -/
theorem timers_fire_once (run : TimerRun ids world) :
    (∀ timer ∈ world.db.timers, world.db.firings timer.key = if timer.state = .fired then 1 else 0) ∧
    (∀ stored ∈ world.db.events, ∀ timerId, isFiringOf timerId stored.event = true →
      ∃ timer ∈ world.db.timers, timer.key = (stored.runId, timerId) ∧ timer.state = .fired ∧
        timer.fireAt.ms ≤ stored.createdAt.ms ∧ stored.createdAt ∈ world.readings) ∧
    (∀ op : TimerOp, op.orderly world →
      (∀ timer ∈ world.db.timers, timer.state ≠ .pending → timer ∈ (op.run ids world).db.timers) ∧
      ((∀ key, (op.run ids world).db.firings key = world.db.firings key) ∧
          (∀ timer ∈ world.db.timers, timer ∈ (op.run ids world).db.timers) ∨
        TickFires ids world op (op.run ids world).db)) ∧
    (∀ scheduler now locked timer, (world.schedulers scheduler).ticking = some now →
      world.db.nextDue? ids locked (world.schedulers scheduler).queueName now = some timer →
      (∀ row, world.db.run? timer.runId = some row → row.status ≠ .running) →
      ((TimerOp.fires scheduler locked none).run ids world).db = world.db.setTimer timer.runId timer.timerId .cancelled) ∧
    ∀ later, TimerRunFrom ids world later → ∀ queueName now locked locked' first second,
      world.db.nextDue? ids locked queueName now = some first → later.db.nextDue? ids locked' queueName now = some second →
        first.noLater ids second ∨ locked second.key = true ∨ second ∉ world.db.timers := by
  have order := run.inOrder
  refine ⟨fun timer listed => ?_, fun stored listed timerId fires => ?_, fun op met => ⟨?_, ?_⟩,
    fun _ _ _ _ ticking next closed => order.cancels ticking next closed, ?_⟩
  · have count := order.fired.counted timer listed
    simpa using count
  · obtain ⟨timer, member, key, due, reading⟩ := order.fired.announced stored listed timerId fires
    refine ⟨timer, member, key, ?_, due, reading⟩
    by_contra unmarked
    have count := order.fired.counted timer member
    rw [if_neg (by simpa using unmarked), key] at count
    exact List.countP_eq_zero.mp count stored listed (Bool.and_eq_true_iff.mpr ⟨beq_self_eq_true _, fires⟩)
  · exact (order.run op met).fired.settled
  · exact (order.step_cases op met).imp_left fun unfired => ⟨unfired.counted, unfired.stays⟩
  · intro later steps queueName now locked locked' first second picked picked'
    obtain ⟨-, -, -, least⟩ := Database.nextDue?_least picked
    obtain ⟨-, due, -⟩ := Database.nextDue?_least picked'
    by_cases there : second ∈ world.db.timers
    · by_cases free : locked second.key = true
      · exact .inr (.inl free)
      · refine .inl (least second there ?_ (Bool.not_eq_true _ ▸ free))
        exact order.wasDue (order.along steps).bounded there due
    · exact .inr (.inr there)

def oneSecond : Instant := ⟨1000, Workflow.oneSecond_lower, Workflow.oneSecond_upper⟩

def twoSeconds : Instant := ⟨2000, Workflow.twoSeconds_lower, Workflow.twoSeconds_upper⟩

def startSleeper : EngineOp := .startRun 0 "main" ⟨"order", .null, none, none, none⟩

def sleepTwice : EngineOp := .recordWorkflowTaskResult none 0 "task" 1
  [.startTimer "timer-1" .epoch (.finite 0), .startTimer "timer-2" oneSecond (.finite 1000)]

/-- A run that sleeps twice, and a scheduler whose tick begins when both timers are due. -/
def sleeper : TimerWorld :=
  [TimerOp.engine startSleeper .epoch none, .engine sleepTwice .epoch none, .begins 0 twoSeconds].foldl
    (fun world op => op.run (fun _ => 0) world) ⟨emptyDatabase, fun _ => ⟨"main", none, none⟩, []⟩

theorem sleeper_reached : TimerRun (fun _ => 0) sleeper := by
  have spares : sleepTwice.sparesTimeouts := by
    intro timerId fireAt durationMs listed
    simp only [List.mem_cons, List.not_mem_nil, or_false, Workflow.WorkflowCommand.startTimer.injEq] at listed
    rcases listed with ⟨rfl, -⟩ | ⟨rfl, -⟩ <;> decide
  have started : (TimerOp.engine startSleeper .epoch none).orderly ⟨emptyDatabase, fun _ => ⟨"main", none, none⟩, []⟩ := by
    refine ⟨⟨trivial, trivial⟩, fun queueName runId timerId same => ?_⟩
    cases same
  have decided (world : TimerWorld) : (TimerOp.engine sleepTwice .epoch none).orderly world := by
    refine ⟨⟨trivial, spares⟩, fun queueName runId timerId same => ?_⟩
    cases same
  exact (((TimerRun.empty fun _ => "main").step _ started).step _ (decided _)).step (.begins 0 twoSeconds) trivial

/-- The first timer is locked while the tick picks the second one. -/
def disordered : TimerWorld :=
  (TimerOp.fires 0 (· == (0, "timer-1")) none).run (fun _ => 0) sleeper

theorem timers_fire_once_disordered : disordered.db.firings (0, "timer-2") = 1 := by
  have run : TimerRun (fun _ => 0) disordered := sleeper_reached.step _ trivial
  have fired : (disordered.db.timers.find? fun timer => timer.key == (0, "timer-2")).map TimerRow.state = some .fired := by
    decide +kernel
  obtain ⟨timer, found, state⟩ := Option.map_eq_some_iff.mp fired
  have count := (timers_fire_once run).1 timer (List.mem_of_find?_eq_some found)
  have key : timer.key = (0, "timer-2") := by simpa using List.find?_some found
  rw [if_pos state, key] at count
  exact count

/-- One tick handles a timer after another one with a later instant. -/
theorem tick_out_of_order : ¬ ∀ ids world later, TimerRun ids world → TimerRunFrom ids world later →
    ∀ scheduler now, (world.schedulers scheduler).ticking = some now → (later.schedulers scheduler).ticking = some now →
    ∀ locked locked' first second, world.db.nextDue? ids locked (world.schedulers scheduler).queueName now = some first →
      later.db.nextDue? ids locked' (later.schedulers scheduler).queueName now = some second → first.noLater ids second := by
  intro ordered
  have early : (sleeper.db.nextDue? (fun _ => 0) (· == (0, "timer-1")) "main" twoSeconds).map (·.fireAt.ms) = some 1000 := by
    decide +kernel
  have late : (disordered.db.nextDue? (fun _ => 0) (fun _ => false) "main" twoSeconds).map (·.fireAt.ms) = some 0 := by
    decide +kernel
  obtain ⟨first, picked, at'⟩ := Option.map_eq_some_iff.mp early
  obtain ⟨second, picked', at''⟩ := Option.map_eq_some_iff.mp late
  have order := ordered (fun _ => 0) sleeper disordered sleeper_reached (.step .refl _ trivial) 0 twoSeconds rfl rfl
    _ _ _ _ picked picked'
  rw [TimerRow.noLater, at', at''] at order
  omega

end Runs

end DurableExecution.Engine

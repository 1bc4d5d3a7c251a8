import DurableExecution.Engine.StepTaskProcessor
import DurableExecution.Worker.Worker

/-
This file follows the deliveries of one task: what the queue does to its row, how each delivery ends,
and the calls of the workers that settle it. It counts the deliveries on which the handler threw.
-/

namespace DurableExecution.Worker

open Engine (TaskRow TaskState PoisonThreshold Database)
open Workflow (Instant)

section Histories

/-- How a delivery of a task ended: by its handler, by a call that the handler made itself, such as
the nack of a step that is tried again, by a lost lease, or by a worker that dropped it. -/
inductive DeliveryEnd where
  | returned
  | parked
  | threw
  | settledByHandler
  | reclaimed
  | dropped
  deriving DecidableEq

/-- A delivery whose lease a worker did not give up for an outcome of its handler. -/
def DeliveryEnd.isLost : DeliveryEnd → Bool
  | .settledByHandler | .reclaimed | .dropped => true
  | .returned | .parked | .threw => false

def HandlerOutcome.ending : HandlerOutcome → DeliveryEnd
  | .resolved => .returned
  | .parked _ => .parked
  | .threw _ => .threw

/-- A delivery: what the queue handed out, whether its signal is aborted, how its handler ended, the
call that its worker has under way, and how the delivery ended. -/
structure Delivery where
  task : LeasedTask
  aborted : Bool
  outcome : Option HandlerOutcome
  call : Option Settlement
  ending : Option DeliveryEnd

/-- The first end of a delivery counts. -/
def Delivery.endWith (delivery : Delivery) (ending : DeliveryEnd) : Delivery :=
  { delivery with ending := delivery.ending.or (some ending) }

/-- A quarantine of the task for failing, with the deliveries up to it. -/
structure HandlerQuarantine where
  reason : String
  deliveries : List Delivery

/-- The row of a task, its deliveries so far, and its quarantines for failing. -/
structure TaskHistory where
  row : TaskRow
  deliveries : List Delivery
  nextToken : Nat
  quarantines : List HandlerQuarantine

/-- What the statement of a settling call makes of a row. -/
def settledRow (now : Instant) (taskId leaseToken : Nat) (settlement : Settlement) (row : TaskRow) : TaskRow :=
  if row.isHeldBy taskId leaseToken then
    match settlement with
    | .ack => row.acked
    | .nack delayMs => row.nacked now delayMs
    | .quarantine _ => row.quarantined
  else row

/-- The handler of the step processor only acknowledges a task or gives it back. -/
inductive HandlerCall where
  | ack
  | nack (delayMs : Nat)

def HandlerCall.settlement : HandlerCall → Settlement
  | .ack => .ack
  | .nack delayMs => .nack delayMs

/-- What happens to a task: at the queue, at the janitor, and at the worker of one of its deliveries. -/
inductive TaskEvent where
  | dequeued (now : Instant) (visibilityTimeoutMs : Nat)
  | reclaimed (now : Instant)
  | released (now : Instant)
  | extended (delivery : Nat) (now : Instant) (visibilityTimeoutMs : Nat)
  | handlerCalls (delivery : Nat) (now : Instant) (call : HandlerCall)
  | aborts (delivery : Nat)
  | drops (delivery : Nat) (now : Instant)
  | ends (delivery : Nat) (outcome : HandlerOutcome)
  | settles (delivery : Nat) (now : Instant)
  | callFails (delivery : Nat)

def TaskHistory.update (history : TaskHistory) (position : Nat) (change : Delivery → Delivery) : TaskHistory :=
  { history with deliveries := history.deliveries.modify position change }

/-- The delivery that holds the lease loses it. -/
def TaskHistory.loseLease (history : TaskHistory) : List Delivery :=
  history.deliveries.map fun delivery =>
    if history.row.leaseToken = some delivery.task.leaseToken then delivery.endWith .reclaimed else delivery

/-- `dequeue` finds the row of the task: a lease that was lost too often parks it. -/
def TaskHistory.dequeue (poisonThreshold : PoisonThreshold) (now : Instant) (visibilityTimeoutMs : Nat)
    (history : TaskHistory) : TaskHistory :=
  if history.row.isPoisoned poisonThreshold then
    { history with row := history.row.parked, deliveries := history.loseLease }
  else
    let row := history.row.delivered now visibilityTimeoutMs history.nextToken
    let task : LeasedTask := ⟨toString row.id, history.nextToken, row.attempts⟩
    { history with
      row := row
      deliveries := history.loseLease ++ [⟨task, false, none, none, none⟩]
      nextToken := history.nextToken + 1 }

/-- The worker of a delivery learns how its handler ended. -/
def Delivery.settle (options : WorkerOptions) (outcome : HandlerOutcome) (delivery : Delivery) : Delivery :=
  if delivery.aborted then { delivery with outcome := some outcome }
  else { delivery with outcome := some outcome, call := some (settlementFor options delivery.task outcome) }.endWith outcome.ending

/-- The reason of a call that quarantines a task because its handler threw. -/
def Delivery.failureReason (delivery : Delivery) : Option String :=
  match delivery.outcome, delivery.call with
  | some (.threw _), some (.quarantine reason) => some reason
  | _, _ => none

/-- The call of the worker of a delivery reaches the queue. -/
def TaskHistory.settle (position : Nat) (now : Instant) (delivery : Delivery) (settlement : Settlement)
    (history : TaskHistory) : TaskHistory :=
  let held := history.row.isHeldBy history.row.id delivery.task.leaseToken
  { history.update position fun delivery => { delivery with call := none } with
    row := settledRow now history.row.id delivery.task.leaseToken settlement history.row
    quarantines := history.quarantines ++
      if held then (delivery.failureReason.map fun reason => ⟨reason, history.deliveries⟩).toList else [] }

/-- An event that is not enabled does nothing. -/
def TaskHistory.step (options : WorkerOptions) (poisonThreshold : PoisonThreshold) (history : TaskHistory) :
    TaskEvent → TaskHistory
  | .dequeued now visibilityTimeoutMs =>
    if (history.row.state = .pending ∨ history.row.state = .leased) ∧ history.row.visibleAt ≤ now.ms then
      history.dequeue poisonThreshold now visibilityTimeoutMs
    else history
  | .reclaimed now =>
    if history.row.isOrphaned now then
      { history with row := history.row.reclaimed now poisonThreshold, deliveries := history.loseLease }
    else history
  | .released now =>
    if history.row.state = .quarantined then { history with row := history.row.released now } else history
  | .extended position now visibilityTimeoutMs =>
    match history.deliveries[position]? with
    | none => history
    | some delivery =>
      if history.row.isHeldBy history.row.id delivery.task.leaseToken ∧ now.ms < history.row.visibleAt then
        { history with row := history.row.extended now visibilityTimeoutMs }
      else history
  | .handlerCalls position now call =>
    match history.deliveries[position]? with
    | none => history
    | some delivery =>
      if delivery.outcome.isNone ∧ history.row.isHeldBy history.row.id delivery.task.leaseToken then
        { history.update position (·.endWith .settledByHandler) with
          row := settledRow now history.row.id delivery.task.leaseToken call.settlement history.row }
      else history
  | .aborts position => history.update position fun delivery => { delivery with aborted := true }
  -- the nack of a delivery that a worker dropped, or that it got after its stop and never started
  | .drops position now =>
    match history.deliveries[position]? with
    | none => history
    | some delivery =>
      if delivery.aborted ∧ history.row.isHeldBy history.row.id delivery.task.leaseToken then
        { history.update position (·.endWith .dropped) with
          row := settledRow now history.row.id delivery.task.leaseToken (.nack 0) history.row }
      else history
  | .ends position outcome =>
    match history.deliveries[position]? with
    | none => history
    | some delivery => if delivery.outcome.isNone then history.update position (·.settle options outcome) else history
  | .settles position now =>
    match history.deliveries[position]? with
    | none => history
    | some delivery =>
      match delivery.call with
      | none => history
      | some settlement => history.settle position now delivery settlement
  -- the queue could not be reached
  | .callFails position => history.update position fun delivery => { delivery with call := none }

def TaskHistory.run (options : WorkerOptions) (poisonThreshold : PoisonThreshold) (history : TaskHistory)
    (events : List TaskEvent) : TaskHistory := events.foldl (·.step options poisonThreshold) history

/-- A task that was never delivered. -/
def TaskHistory.enqueued (row : TaskRow) : TaskHistory := ⟨row, [], 0, []⟩

end Histories

section Queues

/-- On the database a settling call changes the row that it names, and no other. -/
theorem settles_row (now : Instant) (db : Database) (taskId leaseToken : Nat) :
    (db.ack taskId leaseToken).2.tasks = db.tasks.map (settledRow now taskId leaseToken .ack) ∧
      (∀ delayMs, (db.nack now taskId leaseToken delayMs).2.tasks = db.tasks.map (settledRow now taskId leaseToken (.nack delayMs))) ∧
      (∀ reason, (db.quarantine taskId leaseToken).2.tasks = db.tasks.map (settledRow now taskId leaseToken (.quarantine reason))) :=
  ⟨rfl, fun _ => rfl, fun _ => rfl⟩

/-- A step that is tried again gives its task back by a call of its handler. -/
theorem retry_settles (steps : String → Option Engine.StepDefinition) (surroundings : Engine.Surroundings) (delivery : Engine.StepDelivery)
    (db : Database) {attempt delayMs : Nat} {retryAt : Instant} (phase : delivery.phase = .retrying attempt delayMs retryAt)
    (reached : surroundings.fails = false) : (delivery.advance steps surroundings db).2.tasks =
      db.tasks.map (settledRow surroundings.now delivery.task.id delivery.task.leaseToken (HandlerCall.nack delayMs).settlement) := by
  unfold Engine.StepDelivery.advance
  simp only [phase, reached, Bool.false_eq_true, if_false]
  exact (settles_row surroundings.now db delivery.task.id delivery.task.leaseToken).2.1 delayMs

end Queues

section Rows

variable {now : Instant} {row : TaskRow} {taskId leaseToken : Nat}

/-- A row keeps its count of deliveries, and its lease if it is not given up. -/
def Keeps (before after : TaskRow) : Prop :=
  after.attempts = before.attempts ∧ (after.leaseToken = none ∨ after.leaseToken = before.leaseToken)

theorem settledRow_keeps (settlement : Settlement) : Keeps row (settledRow now taskId leaseToken settlement row) := by
  unfold settledRow
  split
  · cases settlement with
    | ack => exact ⟨rfl, .inl rfl⟩
    | nack => exact ⟨rfl, .inl rfl⟩
    | quarantine => exact ⟨rfl, .inl rfl⟩
  · exact ⟨rfl, .inr rfl⟩

/-- A call with the lease of the row takes the lease. -/
theorem settledRow_unleased (settlement : Settlement) (held : row.isHeldBy taskId leaseToken = true) :
    (settledRow now taskId leaseToken settlement row).leaseToken = none := by
  unfold settledRow
  rw [if_pos held]
  cases settlement <;> rfl

theorem held_token (held : row.isHeldBy taskId leaseToken = true) : row.leaseToken = some leaseToken := by
  simp only [TaskRow.isHeldBy, Bool.and_eq_true, beq_iff_eq] at held
  exact held.1.2

end Rows

section Invariants

variable {options : WorkerOptions} {row : TaskRow} {nextToken : Nat} {delivery : Delivery}

/-- What holds of each delivery: only the latest one may hold the lease, not after it lost it, and a
worker calls the queue for the outcome of its handler. -/
structure Delivery.Sound (options : WorkerOptions) (row : TaskRow) (nextToken : Nat) (delivery : Delivery) : Prop where
  older : delivery.task.leaseToken < nextToken
  current : row.leaseToken = some delivery.task.leaseToken → delivery.task.attempts = row.attempts
  lost : ∀ ending, delivery.ending = some ending → ending.isLost = true → row.leaseToken ≠ some delivery.task.leaseToken
  running : delivery.outcome = none → ∀ ending, delivery.ending = some ending → ending.isLost = true
  called : ∀ settlement, delivery.call = some settlement → ∃ outcome ending, delivery.outcome = some outcome ∧
    settlement = settlementFor options delivery.task outcome ∧ delivery.ending = some ending ∧
    (ending = outcome.ending ∨ ending.isLost = true)

theorem Delivery.Sound.change (sound : delivery.Sound options row nextToken) {row' : TaskRow} (keeps : Keeps row row') :
    delivery.Sound options row' nextToken := by
  obtain ⟨attempts, unleased | same⟩ := keeps
  · refine ⟨sound.older, fun leased => ?_, fun _ _ _ leased => ?_, sound.running, sound.called⟩
    · rw [unleased] at leased
      cases leased
    · rw [unleased] at leased
      cases leased
  · refine ⟨sound.older, fun leased => ?_, fun ending ended isLost leased => ?_, sound.running, sound.called⟩
    · rw [attempts]
      exact sound.current (same ▸ leased)
    · exact sound.lost ending ended isLost (same ▸ leased)

/-- A delivery may lose a lease that it does not hold any more. -/
theorem Delivery.Sound.endWith (sound : delivery.Sound options row nextToken) {ending : DeliveryEnd} (isLost : ending.isLost = true)
    (gone : row.leaseToken ≠ some delivery.task.leaseToken) : (delivery.endWith ending).Sound options row nextToken := by
  have ends : ∀ later, (delivery.endWith ending).ending = some later → delivery.ending = some later ∨ later = ending := by
    intro later ended
    cases before : delivery.ending with
    | none =>
      rw [Delivery.endWith, before] at ended
      cases ended
      exact .inr rfl
    | some earlier =>
      rw [Delivery.endWith, before] at ended
      exact .inl ended
  refine ⟨sound.older, sound.current, fun _ _ _ => gone, fun unanswered later ended => ?_, fun settlement call => ?_⟩
  · rcases ends later ended with before | rfl
    · exact sound.running unanswered later before
    · exact isLost
  · obtain ⟨outcome, earlier, answered, same, ended, kind⟩ := sound.called settlement call
    refine ⟨outcome, earlier, answered, same, ?_, kind⟩
    rw [Delivery.endWith, ended]
    rfl

theorem Delivery.Sound.withoutCall (sound : delivery.Sound options row nextToken) :
    { delivery with call := none : Delivery }.Sound options row nextToken :=
  ⟨sound.older, sound.current, sound.lost, sound.running, fun _ call => nomatch call⟩

theorem Delivery.Sound.abort (sound : delivery.Sound options row nextToken) :
    { delivery with aborted := true : Delivery }.Sound options row nextToken :=
  ⟨sound.older, sound.current, sound.lost, sound.running, sound.called⟩

theorem HandlerOutcome.ending_kept (outcome : HandlerOutcome) : outcome.ending.isLost = false := by
  cases outcome <;> rfl

/-- The end of a handler ends its delivery, unless its lease was lost before. -/
theorem Delivery.Sound.settle (sound : delivery.Sound options row nextToken) (running : delivery.outcome = none)
    (outcome : HandlerOutcome) : (delivery.settle options outcome).Sound options row nextToken := by
  have uncalled : delivery.call = none := by
    cases call : delivery.call with
    | none => rfl
    | some settlement =>
      obtain ⟨_, _, answered, _⟩ := sound.called settlement call
      rw [running] at answered
      cases answered
  by_cases aborted : delivery.aborted = true
  · rw [Delivery.settle, if_pos aborted]
    refine ⟨sound.older, sound.current, sound.lost, (fun unanswered => nomatch unanswered), fun settlement call => ?_⟩
    rw [uncalled] at call
    cases call
  · rw [Delivery.settle, if_neg aborted]
    cases before : delivery.ending with
    | none =>
      refine ⟨sound.older, sound.current, fun ending ended isLost => ?_, (fun unanswered => nomatch unanswered),
        fun settlement call => ?_⟩
      · cases ended
        rw [outcome.ending_kept] at isLost
        cases isLost
      · cases call
        exact ⟨outcome, outcome.ending, rfl, rfl, rfl, .inl rfl⟩
    | some earlier =>
      have isLost := sound.running running earlier before
      refine ⟨sound.older, sound.current, fun ending ended _ => ?_, (fun unanswered => nomatch unanswered), fun settlement call => ?_⟩
      · exact sound.lost earlier before isLost
      · cases call
        exact ⟨outcome, earlier, rfl, rfl, rfl, .inr isLost⟩

/-- The number that a quarantine for failing names is that of all deliveries so far. -/
def HandlerQuarantine.Faithful (options : WorkerOptions) (quarantine : HandlerQuarantine) : Prop :=
  options.maxHandlerAttempts ≤ quarantine.deliveries.length ∧
    ∃ message, quarantine.reason = "handler failed " ++ toString quarantine.deliveries.length ++ " times: " ++ message

structure TaskHistory.Sound (options : WorkerOptions) (history : TaskHistory) : Prop where
  counted : history.row.attempts = history.deliveries.length
  each : ∀ delivery ∈ history.deliveries, delivery.Sound options history.row history.nextToken
  recorded : ∀ quarantine ∈ history.quarantines, quarantine.Faithful options

end Invariants

section Steps

variable {options : WorkerOptions} {poisonThreshold : PoisonThreshold} {history : TaskHistory}

theorem mem_modify {Item : Type} {items : List Item} {position : Nat} {change : Item → Item} {item : Item}
    (listed : item ∈ items.modify position change) : item ∈ items ∨ ∃ before, items[position]? = some before ∧ item = change before := by
  obtain ⟨place, found⟩ := List.mem_iff_getElem?.mp listed
  rw [List.getElem?_modify] at found
  obtain ⟨before, there, same⟩ := Option.map_eq_some_iff.mp found
  by_cases here : position = place
  · subst here
    rw [if_pos rfl] at same
    exact .inr ⟨before, there, same.symm⟩
  · rw [if_neg here] at same
    exact .inl (same ▸ List.mem_of_getElem? there)

/-- A change of the row and of one delivery keeps the invariant if that delivery keeps its part. -/
theorem TaskHistory.Sound.update (sound : history.Sound options) {row' : TaskRow} (keeps : Keeps history.row row') (position : Nat)
    (change : Delivery → Delivery) (changed : ∀ delivery, history.deliveries[position]? = some delivery →
      (change delivery).Sound options row' history.nextToken) :
    { history.update position change with row := row' : TaskHistory }.Sound options := by
  refine ⟨?_, fun delivery listed => ?_, sound.recorded⟩
  · change row'.attempts = (history.deliveries.modify position change).length
    rw [List.length_modify, keeps.1, sound.counted]
  · rcases mem_modify listed with same | ⟨before, there, rfl⟩
    · exact (sound.each delivery same).change keeps
    · exact changed before there

/-- The lease of a row that gives it up is lost for the delivery that held it. -/
theorem TaskHistory.Sound.loseLease (sound : history.Sound options) {row' : TaskRow} (attempts : history.row.attempts = row'.attempts)
    (unleased : row'.leaseToken = none) : { history with row := row', deliveries := history.loseLease : TaskHistory }.Sound options := by
  refine ⟨?_, fun delivery listed => ?_, sound.recorded⟩
  · change row'.attempts = (history.deliveries.map _).length
    rw [List.length_map, ← attempts, sound.counted]
  · obtain ⟨before, member, rfl⟩ := List.mem_map.mp listed
    have moved : before.Sound options row' history.nextToken := (sound.each before member).change ⟨attempts.symm, .inl unleased⟩
    have gone : row'.leaseToken ≠ some before.task.leaseToken := by
      rw [unleased]
      exact Option.some_ne_none _ |>.symm
    dsimp only
    split
    · exact moved.endWith rfl gone
    · exact moved

/-- A delivery gets a token of its own, and the number of its deliveries. -/
theorem TaskHistory.Sound.dequeue (sound : history.Sound options) (now : Instant) (visibilityTimeoutMs : Nat) :
    (history.dequeue poisonThreshold now visibilityTimeoutMs).Sound options := by
  unfold TaskHistory.dequeue
  split
  · exact sound.loseLease rfl rfl
  · have unleased : { history with
        row := { history.row with leaseToken := none }, deliveries := history.loseLease : TaskHistory }.Sound options :=
      sound.loseLease rfl rfl
    refine ⟨?_, fun delivery listed => ?_, sound.recorded⟩
    · change history.row.attempts + 1 = (history.loseLease ++ [_]).length
      rw [List.length_append, ← unleased.counted, List.length_singleton]
    · rcases List.mem_append.mp listed with before | new
      · have earlier := unleased.each delivery before
        have other : some history.nextToken ≠ some delivery.task.leaseToken := fun same =>
          absurd (Option.some.inj same) (Nat.ne_of_gt earlier.older)
        exact ⟨Nat.lt_succ_of_lt earlier.older, fun leased => absurd leased other, fun _ _ _ => other, earlier.running, earlier.called⟩
      · cases List.mem_singleton.mp new
        exact ⟨Nat.lt_succ_self _, fun _ => rfl, (fun _ ended => nomatch ended), (fun _ _ ended => nomatch ended),
          fun _ call => nomatch call⟩

/-- A call of a worker that reaches the queue with the lease is that of the latest delivery. -/
theorem TaskHistory.Sound.settle (sound : history.Sound options) {position : Nat} {now : Instant} {delivery : Delivery}
    (there : history.deliveries[position]? = some delivery) {settlement : Settlement} (call : delivery.call = some settlement) :
    (history.settle position now delivery settlement).Sound options := by
  have own := sound.each delivery (List.mem_of_getElem? there)
  have keeps : Keeps history.row (settledRow now history.row.id delivery.task.leaseToken settlement history.row) :=
    settledRow_keeps settlement
  have moved := sound.update keeps position (fun delivery => { delivery with call := none }) fun before found =>
    ((sound.each before (List.mem_of_getElem? found)).change keeps).withoutCall
  refine ⟨moved.counted, moved.each, fun quarantine listed => ?_⟩
  rcases List.mem_append.mp listed with before | new
  · exact sound.recorded quarantine before
  · split at new
    · next held =>
        obtain ⟨reason, failing, rfl⟩ := Option.map_eq_some_iff.mp (Option.mem_toList.mp new)
        obtain ⟨outcome, ending, answered, same, ended, kind⟩ := own.called settlement call
        cases outcome with
        | resolved => simp only [Delivery.failureReason, answered, reduceCtorEq] at failing
        | parked message => simp only [Delivery.failureReason, answered, reduceCtorEq] at failing
        | threw message =>
          have latest : delivery.task.attempts = history.deliveries.length :=
            (own.current (held_token held)).trans sound.counted
          simp only [settlementFor, settleFailure, Bool.false_eq_true, if_false] at same
          split at same
          · next enough =>
              simp only [Delivery.failureReason, answered, call, same, Option.some.injEq] at failing
              rw [latest] at failing enough
              exact ⟨enough, message, failing.symm⟩
          · simp only [Delivery.failureReason, answered, call, same, reduceCtorEq] at failing
    · cases new

theorem TaskHistory.Sound.step (sound : history.Sound options) (event : TaskEvent) :
    (history.step options poisonThreshold event).Sound options := by
  cases event with
  | dequeued now visibilityTimeoutMs =>
    unfold TaskHistory.step
    dsimp only
    split
    · exact sound.dequeue now visibilityTimeoutMs
    · exact sound
  | reclaimed now =>
    unfold TaskHistory.step
    dsimp only
    split
    · exact sound.loseLease rfl rfl
    · exact sound
  | released now =>
    unfold TaskHistory.step
    dsimp only
    split
    · exact ⟨sound.counted, fun delivery listed => (sound.each delivery listed).change ⟨rfl, .inr rfl⟩, sound.recorded⟩
    · exact sound
  | extended position now visibilityTimeoutMs =>
    unfold TaskHistory.step
    dsimp only
    split
    · exact sound
    · split
      · exact ⟨sound.counted, fun delivery listed => (sound.each delivery listed).change ⟨rfl, .inr rfl⟩, sound.recorded⟩
      · exact sound
  | handlerCalls position now call =>
    unfold TaskHistory.step
    dsimp only
    split
    · exact sound
    · next delivery there =>
        split
        · next enabled =>
            refine sound.update (settledRow_keeps _) position _ fun before found => ?_
            cases Option.some.inj (there.symm.trans found)
            refine ((sound.each delivery (List.mem_of_getElem? there)).change (settledRow_keeps _)).endWith rfl ?_
            rw [settledRow_unleased _ enabled.2]
            exact (Option.some_ne_none _).symm
        · exact sound
  | aborts position =>
    exact sound.update ⟨rfl, .inr rfl⟩ position _ fun delivery found => (sound.each delivery (List.mem_of_getElem? found)).abort
  | drops position now =>
    unfold TaskHistory.step
    dsimp only
    split
    · exact sound
    · next delivery there =>
        split
        · next enabled =>
            refine sound.update (settledRow_keeps _) position _ fun before found => ?_
            cases Option.some.inj (there.symm.trans found)
            refine ((sound.each delivery (List.mem_of_getElem? there)).change (settledRow_keeps _)).endWith rfl ?_
            rw [settledRow_unleased _ enabled.2]
            exact (Option.some_ne_none _).symm
        · exact sound
  | ends position outcome =>
    unfold TaskHistory.step
    dsimp only
    split
    · exact sound
    · next delivery there =>
        split
        · next unanswered =>
            refine sound.update ⟨rfl, .inr rfl⟩ position _ fun before found => ?_
            cases Option.some.inj (there.symm.trans found)
            exact (sound.each delivery (List.mem_of_getElem? there)).settle (Option.isNone_iff_eq_none.mp unanswered) outcome
        · exact sound
  | settles position now =>
    unfold TaskHistory.step
    dsimp only
    split
    · exact sound
    · next delivery there =>
        split
        · exact sound
        · next settlement call => exact sound.settle there call
  | callFails position =>
    exact sound.update ⟨rfl, .inr rfl⟩ position _ fun delivery found => (sound.each delivery (List.mem_of_getElem? found)).withoutCall

/-- The invariant holds after every history of a task. -/
theorem TaskHistory.Sound.run (sound : history.Sound options) (events : List TaskEvent) :
    (history.run options poisonThreshold events).Sound options := by
  induction events generalizing history with
  | nil => exact sound
  | cons event events ih => exact ih (sound.step event)

theorem enqueued_sound (row : TaskRow) (undelivered : row.attempts = 0) : (TaskHistory.enqueued row).Sound options :=
  ⟨undelivered, fun _ listed => (List.not_mem_nil listed).elim, fun _ listed => (List.not_mem_nil listed).elim⟩

end Steps

section Quarantines

/-- On how many deliveries the handler threw. -/
def HandlerQuarantine.thrown (quarantine : HandlerQuarantine) : Nat :=
  quarantine.deliveries.countP fun delivery => delivery.ending = some .threw

/-- A quarantine for failing means what it says: its number is that of the deliveries on which the
handler threw, and there are enough of them. -/
def HandlerQuarantine.Meant (options : WorkerOptions) (quarantine : HandlerQuarantine) : Prop :=
  options.maxHandlerAttempts ≤ quarantine.thrown ∧
    ∃ message, quarantine.reason = "handler failed " ++ toString quarantine.thrown ++ " times: " ++ message

theorem digits_end {one two : List Char} (first : ∀ digit ∈ one, digit.isDigit = true) (second : ∀ digit ∈ two, digit.isDigit = true)
    {front back : List Char} (same : one ++ ' ' :: front = two ++ ' ' :: back) : one = two := by
  have taken := congrArg (List.takeWhile Char.isDigit) same
  rw [List.takeWhile_append_of_pos first, List.takeWhile_append_of_pos second,
    List.takeWhile_cons_of_neg (by decide), List.takeWhile_cons_of_neg (by decide), List.append_nil, List.append_nil] at taken
  exact taken

/-- The reason of a quarantine for failing names one number. -/
theorem failures_injective {one two : Nat} {first second : String}
    (same : "handler failed " ++ toString one ++ " times: " ++ first = "handler failed " ++ toString two ++ " times: " ++ second) :
    one = two := by
  have lists := congrArg String.toList same
  simp only [String.toList_append, List.append_assoc, List.append_cancel_left_eq, Nat.toString_eq_repr, Nat.toList_repr] at lists
  have digits : ∀ number, ∀ digit ∈ Nat.toDigits 10 number, digit.isDigit = true := fun number digit listed =>
    Nat.isDigit_of_mem_toDigits (by decide) (by decide) listed
  have values := congrArg (Nat.ofDigitChars 10 · 0) (digits_end (digits one) (digits two) lists)
  simpa only [Nat.ofDigitChars_ten_toDigits] using values

theorem HandlerQuarantine.Faithful.meant_iff {options : WorkerOptions} {quarantine : HandlerQuarantine}
    (faithful : quarantine.Faithful options) :
    quarantine.Meant options ↔ ∀ delivery ∈ quarantine.deliveries, delivery.ending = some .threw := by
  obtain ⟨enough, message, named⟩ := faithful
  have all : quarantine.thrown = quarantine.deliveries.length ↔ ∀ delivery ∈ quarantine.deliveries, delivery.ending = some .threw := by
    rw [HandlerQuarantine.thrown, List.countP_eq_length]
    simp only [decide_eq_true_eq]
  rw [← all]
  constructor
  · rintro ⟨-, message', named'⟩
    exact failures_injective (named'.symm.trans named)
  · intro same
    rw [HandlerQuarantine.Meant, same]
    exact ⟨enough, message, named⟩

/-- In every history of a task, its quarantines for failing mean what they say exactly when the
handler threw on all the deliveries before each of them. -/
theorem quarantines_meant_iff (options : WorkerOptions) (poisonThreshold : PoisonThreshold) (row : TaskRow) (undelivered : row.attempts = 0)
    (events : List TaskEvent) :
    let history := (TaskHistory.enqueued row).run options poisonThreshold events
    (∀ quarantine ∈ history.quarantines, quarantine.Meant options) ↔
      ∀ quarantine ∈ history.quarantines, ∀ delivery ∈ quarantine.deliveries, delivery.ending = some .threw := by
  have sound : ((TaskHistory.enqueued row).run options poisonThreshold events).Sound options := (enqueued_sound row undelivered).run events
  constructor
  · intro meant quarantine listed
    exact (sound.recorded quarantine listed).meant_iff.mp (meant quarantine listed)
  · intro threw quarantine listed
    exact (sound.recorded quarantine listed).meant_iff.mpr (threw quarantine listed)

/-- The row of a step's task, a worker with its default options, and the instants of a run. -/
def retriedRow : TaskRow := Engine.newTask 1 0 "default" (.stepTask "step-1" "charge" .null 0) 0 0

def parkingOptions (maxHandlerAttempts : Nat) : WorkerOptions := ⟨1, 30000, 0, none, maxHandlerAttempts⟩

def second (number : Fin 100) : Instant :=
  ⟨1000 * number.val, by simp only [Workflow.maxTimeMs]; omega, by simp only [Workflow.maxTimeMs]; omega⟩

/-- Nine attempts fail and are scheduled again, and in the tenth the database cannot be reached. -/
def retriesThenFault : List TaskEvent :=
  ((List.finRange 9).flatMap fun number =>
    [.dequeued (second (Fin.ofNat 100 number)) 30000, .handlerCalls number (second (Fin.ofNat 100 number)) (.nack 1000)]) ++
  [.dequeued (second 9) 30000, .ends 9 (.threw "connection terminated"), .settles 9 (second 9)]

/-- The task of a step is quarantined at the first delivery on which its handler threw. -/
theorem quarantined_at_first_fault :
    ¬ ∀ (options : WorkerOptions) (poisonThreshold : PoisonThreshold) (row : TaskRow) (events : List TaskEvent), row.attempts = 0 →
      ∀ quarantine ∈ ((TaskHistory.enqueued row).run options poisonThreshold events).quarantines, quarantine.Meant options := by
  intro meant
  have all := meant (parkingOptions 10) ⟨5, by decide⟩ retriedRow retriesThenFault rfl
  have early : ∃ quarantine ∈ ((TaskHistory.enqueued retriedRow).run (parkingOptions 10) ⟨5, by decide⟩ retriesThenFault).quarantines,
      quarantine.reason = "handler failed 10 times: connection terminated" ∧ quarantine.thrown = 1 := by decide +kernel
  obtain ⟨quarantine, listed, -, once⟩ := early
  have enough := (all quarantine listed).1
  rw [once] at enough
  exact absurd enough (by decide)

theorem quarantines_meant_iff_twice :
    let history := (TaskHistory.enqueued retriedRow).run (parkingOptions 2) ⟨5, by decide⟩
      [.dequeued (second 0) 30000, .ends 0 (.threw "one"), .settles 0 (second 0),
        .dequeued (second 1) 30000, .ends 1 (.threw "two"), .settles 1 (second 1)]
    history.quarantines.length = 1 ∧ ∀ quarantine ∈ history.quarantines, quarantine.Meant (parkingOptions 2) :=
  ⟨by decide +kernel, (quarantines_meant_iff (parkingOptions 2) ⟨5, by decide⟩ retriedRow rfl _).mpr (by decide +kernel)⟩

end Quarantines

end DurableExecution.Worker

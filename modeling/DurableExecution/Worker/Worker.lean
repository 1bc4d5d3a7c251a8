import Mathlib.Algebra.Group.Nat.Defs
import Mathlib.Data.List.Nodup
import Mathlib.Logic.Function.Basic
import Mathlib.Order.Basic

/-
This file models a worker: its poll loop, the heartbeats and the settling of its running tasks, and
its shutdown, over a queue that honours lease tokens. Each step between two awaits is one operation.
-/

namespace DurableExecution.Worker

abbrev TaskId := String
abbrev LeaseToken := Nat

structure LeasedTask where
  id : TaskId
  leaseToken : LeaseToken
  attempts : Nat

/-- A call of the queue that settles a delivery. -/
inductive Settlement where
  | ack
  | nack (delayMs : Nat)
  | quarantine (reason : String)
  deriving DecidableEq

structure QueueCall where
  id : TaskId
  leaseToken : LeaseToken
  settlement : Settlement
  deriving DecidableEq

/-- How a handler ends: an error is a `ParkTaskError` or another one. -/
inductive HandlerOutcome where
  | resolved
  | parked (message : String)
  | threw (message : String)

inductive AbortReason where
  | leaseLost
  | shutdownTimeout

/-- The stages of `execute`: the handler, the call of the queue that settles it, and what follows. -/
inductive ExecuteStage where
  | handling
  | calling
  | settled
  | done
  deriving DecidableEq

inductive Heartbeat where
  | stopped
  | scheduled
  | extending
  deriving DecidableEq

/-- The stages of `drop`: not called, the grace of the handler, its nack, and its end. -/
inductive DropStage where
  | none
  | grace
  | nacking
  | ended
  deriving DecidableEq

/-- What the end of a handler found: the flags `aborted` and `dropped`. -/
structure Ending where
  outcome : HandlerOutcome
  aborted : Bool
  dropped : Bool

/-- A launched delivery. It is `mapped` while `inFlight` holds it under the id of its task. -/
structure RunningTask where
  task : LeasedTask
  mapped : Bool
  stage : ExecuteStage
  heartbeat : Heartbeat
  leaseConfirmedAt : Int
  aborted : Option AbortReason
  finished : Bool
  dropped : Bool
  drop : DropStage
  ending : Option Ending

structure NackBackoff where
  initialMs : Nat
  maxMs : Nat

structure WorkerOptions where
  concurrency : Nat
  visibilityTimeoutMs : Nat
  nackDelayMs : Nat
  nackBackoff : Option NackBackoff
  maxHandlerAttempts : Nat

inductive WorkerState where
  | idle
  | running
  | stopping
  | stopped
  deriving DecidableEq

/-- The stages of `pollLoop`: at its head, at the budget of a poll, at the queue, with the tasks of a
poll, at the release of tasks that it does not start, asleep, or ended. -/
inductive PollStage where
  | idle
  | looking
  | budgeting (free : Nat)
  | dequeuing (limit : Nat)
  | arriving (tasks : List LeasedTask)
  | releasing (tasks : List LeasedTask)
  | asleep
  | ended

/-- The stages of `shutDown`: the poll loop, the running tasks, and those that it drops. -/
inductive ShutdownStage where
  | none
  | joining
  | waiting (running : List LeaseToken)
  | dropping (stragglers : List LeaseToken)
  | ended

/-- A worker, the leases of its queue, the calls that it made and those that took effect, and the tasks
that it got after its stop began. -/
structure WorkerWorld where
  state : WorkerState
  poll : PollStage
  running : List RunningTask
  shutdown : ShutdownStage
  leases : TaskId → Option LeaseToken
  nextToken : LeaseToken
  calls : List QueueCall
  effects : List QueueCall
  refused : List LeasedTask

section Settling

def nackDelayFor (attempts : Nat) (backoff : NackBackoff) : Nat :=
  min backoff.maxMs (backoff.initialMs * 2 ^ min (attempts - 1) 30)

/-- The call of `settleFailure`. -/
def settleFailure (options : WorkerOptions) (task : LeasedTask) (park : Bool) (message : String) : Settlement :=
  if park then .quarantine message
  else if options.maxHandlerAttempts ≤ task.attempts then
    .quarantine ("handler failed " ++ toString task.attempts ++ " times: " ++ message)
  else .nack (options.nackBackoff.elim options.nackDelayMs (nackDelayFor task.attempts))

def settlementFor (options : WorkerOptions) (task : LeasedTask) : HandlerOutcome → Settlement
  | .resolved => .ack
  | .parked message => settleFailure options task true message
  | .threw message => settleFailure options task false message

def RunningTask.call (running : RunningTask) (settlement : Settlement) : QueueCall :=
  ⟨running.task.id, running.task.leaseToken, settlement⟩

def RunningTask.stopHeartbeat (running : RunningTask) : RunningTask :=
  { running with
    finished := true
    heartbeat := if running.heartbeat = .scheduled then .stopped else running.heartbeat }

/-- `controller.abort`: a signal keeps its first reason. -/
def RunningTask.abort (running : RunningTask) (reason : AbortReason) : RunningTask :=
  { running with aborted := running.aborted.or (some reason) }

/-- The end of the handler, up to the call of the queue if there is one. -/
def settle (options : WorkerOptions) (running : RunningTask) (outcome : HandlerOutcome) : RunningTask × List QueueCall :=
  let leaseLost := running.aborted.isSome
  let running := { running.stopHeartbeat with ending := some ⟨outcome, leaseLost, running.dropped⟩ }
  if running.dropped || leaseLost then ({ running with stage := .settled }, [])
  else ({ running with stage := .calling }, [running.call (settlementFor options running.task outcome)])

/-- What a heartbeat learns. -/
inductive LeaseAnswer where
  | held
  | lost
  | failed

/-- The rest of `beat`, once `extend` has answered or failed. -/
def beat (options : WorkerOptions) (now : Int) (running : RunningTask) (answer : LeaseAnswer) : RunningTask :=
  let running := { running with
    heartbeat := .stopped
    leaseConfirmedAt := match answer with
      | .held => now
      | _ => running.leaseConfirmedAt }
  let leaseHeld := match answer with
    | .held => true
    | .lost => false
    | .failed => decide (now - running.leaseConfirmedAt < options.visibilityTimeoutMs)
  if running.finished then running
  else if !leaseHeld then { running with finished := true }.abort .leaseLost
  else { running with heartbeat := .scheduled }

/-- The steps of one delivery. -/
inductive TaskOp where
  | beats
  | extended (now : Int) (answer : LeaseAnswer)
  | ends (outcome : HandlerOutcome)
  | answered
  | deletes
  | nacks
  | forgets

/-- A step of a delivery: what it makes of it, the calls that it makes, and whether it deletes its
task from `inFlight`. A step that is not enabled does nothing. -/
def TaskOp.run (options : WorkerOptions) (running : RunningTask) : TaskOp → RunningTask × List QueueCall × Bool
  | .beats =>
    if running.heartbeat = .scheduled then ({ running with heartbeat := .extending }, [], false) else (running, [], false)
  | .extended now answer =>
    if running.heartbeat = .extending then (beat options now running answer, [], false) else (running, [], false)
  | .ends outcome =>
    if running.stage = .handling then
      let (running, calls) := settle options running outcome
      (running, calls, false)
    else (running, [], false)
  -- the call of `settle` was answered, or it failed
  | .answered => if running.stage = .calling then ({ running with stage := .settled }, [], false) else (running, [], false)
  | .deletes => if running.stage = .settled then ({ running with stage := .done }, [], true) else (running, [], false)
  -- `drop` goes on once the task is done or its grace has passed
  | .nacks =>
    if running.drop = .grace then ({ running with drop := .nacking }, [running.call (.nack 0)], false)
    else (running, [], false)
  | .forgets => if running.drop = .nacking then ({ running with drop := .ended }, [], true) else (running, [], false)

/-- The start of `drop`, up to its first await. -/
def RunningTask.startDrop (running : RunningTask) : RunningTask :=
  { { running with dropped := true, drop := .grace }.stopHeartbeat with
    aborted := running.aborted.or (some .shutdownTimeout) }

end Settling

section Steps

/-- A change of the running task with a lease token. -/
def updateTask (leaseToken : LeaseToken) (change : RunningTask → RunningTask) (running : List RunningTask) :
    List RunningTask :=
  running.map fun other => if other.task.leaseToken = leaseToken then change other else other

/-- `inFlight.delete`. -/
def deleteTask (id : TaskId) (running : List RunningTask) : List RunningTask :=
  running.map fun other => if other.task.id = id then { other with mapped := false } else other

def WorkerWorld.find? (world : WorkerWorld) (leaseToken : LeaseToken) : Option RunningTask :=
  world.running.find? fun running => running.task.leaseToken = leaseToken

/-- `activeCount`, the size of `inFlight`. -/
def WorkerWorld.activeCount (world : WorkerWorld) : Nat := world.running.countP RunningTask.mapped

/-- `inFlight.set` takes the place of another delivery of the task. -/
def launch (now : Int) (running : List RunningTask) (task : LeasedTask) : List RunningTask :=
  deleteTask task.id running ++ [⟨task, true, .handling, .scheduled, now, none, false, false, .none, none⟩]

/-- `wake`. -/
def WorkerWorld.wake (world : WorkerWorld) : WorkerWorld :=
  match world.poll with
  | .asleep => { world with poll := .looking }
  | _ => world

/-- A poll leases tasks, each with a token of its own. -/
def leaseTasks (nextToken : LeaseToken) (tasks : List (TaskId × Nat)) : List LeasedTask :=
  (tasks.zipIdx nextToken).map fun entry => ⟨entry.1.1, entry.2, entry.1.2⟩

/-- What happens at a worker and at its queue. -/
inductive WorkerOp where
  | start
  | looks
  | budgets (budget : Option Int)
  | leases (tasks : List (TaskId × Nat))
  | dequeueFails
  | arrives (now : Int)
  | releases
  | wakes
  | task (leaseToken : LeaseToken) (op : TaskOp)
  | stops
  | joins
  | finishes
  | timesOut
  | stopped
  | handles (call : QueueCall)
  | relets (id : TaskId) (taken : Bool)

/-- What one operation makes of the world. One that is not enabled leaves it alone. -/
def WorkerOp.run (options : WorkerOptions) (world : WorkerWorld) : WorkerOp → WorkerWorld
  | .start => if world.state = .idle then { world with state := .running, poll := .looking } else world
  | .looks =>
    match world.poll with
    | .looking =>
      if world.state = .running then
        let free := options.concurrency - world.activeCount
        { world with poll := if free = 0 then .asleep else .budgeting free }
      else { world with poll := .ended }
    | _ => world
  -- without a budget, or where it fails, all free slots are asked for
  | .budgets budget =>
    match world.poll with
    | .budgeting free =>
      let limit := budget.elim free fun budget => (max 0 (min (free : Int) budget)).toNat
      { world with poll := if limit = 0 then .arriving [] else .dequeuing limit }
    | _ => world
  | .leases tasks =>
    match world.poll with
    | .dequeuing limit =>
      if tasks.length ≤ limit then
        let leased := leaseTasks world.nextToken tasks
        { world with
          poll := .arriving leased
          leases := leased.foldl (fun leases task => Function.update leases task.id (some task.leaseToken)) world.leases
          nextToken := world.nextToken + tasks.length }
      else world
    | _ => world
  | .dequeueFails =>
    match world.poll with
    | .dequeuing _ | .arriving _ => { world with poll := .arriving [] }
    | _ => world
  | .arrives now =>
    match world.poll with
    | .arriving tasks =>
      if world.state ≠ .running then { world with poll := .releasing tasks, refused := world.refused ++ tasks }
      else if tasks.isEmpty then { world with poll := .asleep }
      else { world with poll := .looking, running := tasks.foldl (launch now) world.running }
    | _ => world
  -- the nack of one task is made when the one before it was answered or failed
  | .releases =>
    match world.poll with
    | .releasing [] => { world with poll := .ended }
    | .releasing (first :: rest) =>
      { world with poll := .releasing rest, calls := world.calls ++ [⟨first.id, first.leaseToken, .nack 0⟩] }
    | _ => world
  | .wakes => world.wake
  | .task leaseToken op =>
    match world.find? leaseToken with
    | none => world
    | some running =>
      let (changed, calls, deletes) := op.run options running
      let others := updateTask leaseToken (fun _ => changed) world.running
      let world := { world with
        running := if deletes then deleteTask running.task.id others else others
        calls := world.calls ++ calls }
      match op with
      | .deletes => if deletes then world.wake else world
      | _ => world
  | .stops =>
    match world.shutdown with
    | .none => { world with state := .stopping, shutdown := .joining }.wake
    | _ => world
  | .joins =>
    match world.shutdown, world.poll with
    | .joining, .idle | .joining, .ended =>
      { world with shutdown := .waiting ((world.running.filter RunningTask.mapped).map fun running => running.task.leaseToken) }
    | _, _ => world
  | .finishes =>
    match world.shutdown with
    | .waiting running =>
      if world.running.all fun other => !running.contains other.task.leaseToken || other.stage = .done then
        { world with shutdown := .ended, state := .stopped }
      else world
    | _ => world
  | .timesOut =>
    match world.shutdown with
    | .waiting running =>
      let stragglers := (world.running.filter fun other => running.contains other.task.leaseToken &&
        world.running.any fun mapped => mapped.mapped && mapped.task.id = other.task.id).map fun other => other.task.leaseToken
      { world with
        shutdown := .dropping stragglers
        running := world.running.map fun other =>
          if stragglers.contains other.task.leaseToken then other.startDrop else other }
    | _ => world
  | .stopped =>
    match world.shutdown with
    | .dropping stragglers =>
      if world.running.all fun other => !stragglers.contains other.task.leaseToken || other.drop = .ended then
        { world with shutdown := .ended, state := .stopped }
      else world
    | _ => world
  -- the queue comes to a call: it takes effect for the holder of the lease
  | .handles call =>
    if world.leases call.id = some call.leaseToken ∧ call ∈ world.calls then
      { world with leases := Function.update world.leases call.id none, effects := world.effects ++ [call] }
    else world
  -- a lease ends otherwise: the task is withdrawn, or it is leased by another worker
  | .relets id taken =>
    { world with
      leases := Function.update world.leases id (if taken then some world.nextToken else none)
      nextToken := world.nextToken + 1 }

/-- A worker before its start. -/
def WorkerWorld.Fresh (world : WorkerWorld) : Prop :=
  world.state = .idle ∧ world.poll = .idle ∧ world.running = [] ∧ world.shutdown = .none ∧
    (∀ id leaseToken, world.leases id = some leaseToken → leaseToken < world.nextToken) ∧ world.calls = [] ∧
    world.effects = [] ∧ world.refused = []

/-- The worlds that operations lead to, each of which an assumption allows. -/
inductive WorkerRun (options : WorkerOptions) (allowed : WorkerOp → WorkerWorld → Prop) (start : WorkerWorld) :
    WorkerWorld → Prop where
  | refl : WorkerRun options allowed start start
  | step {world : WorkerWorld} (run : WorkerRun options allowed start world) (op : WorkerOp) (met : allowed op world) :
      WorkerRun options allowed start (op.run options world)

end Steps

end DurableExecution.Worker

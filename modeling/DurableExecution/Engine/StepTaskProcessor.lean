import Mathlib.Algebra.Order.Field.Rat
import Mathlib.Tactic.NormNum
import DurableExecution.Engine.RunControl
import DurableExecution.Engine.TaskQueue

/-
This file models how a worker handles one delivery of a step task. Each step of it is one
statement or one transaction, so other workers run between any two of them.
-/

namespace DurableExecution.Engine

open Workflow (JsValue RecordedError Instant)
open Transaction

section Retries

/-- How a failing step is retried. -/
structure RetryPolicy where
  initialIntervalMs : Rat
  backoffCoefficient : Rat
  maxIntervalMs : Rat
  maxAttempts : Nat
  jitter : Rat
  nonRetryableErrorNames : List String
  positiveInterval : 0 < initialIntervalMs
  growing : 1 ≤ backoffCoefficient
  widest : initialIntervalMs ≤ maxIntervalMs
  positiveAttempts : 0 < maxAttempts
  spread : 0 ≤ jitter ∧ jitter ≤ 1

/-- The policy of a step that declares none. -/
def defaultRetryPolicy : RetryPolicy where
  initialIntervalMs := 1000
  backoffCoefficient := 2
  maxIntervalMs := 60000
  maxAttempts := 3
  jitter := 1 / 10
  nonRetryableErrorNames := []
  positiveInterval := by norm_num
  growing := by norm_num
  widest := by norm_num
  positiveAttempts := by norm_num
  spread := by norm_num

inductive GiveUpReason where
  | nonRetryable
  | maxAttemptsExhausted
  deriving DecidableEq

/-- What follows a failed attempt. -/
inductive RetryDecision where
  | retry (delayMs : Nat)
  | giveUp (reason : GiveUpReason)

def errorName : RecordedError → String
  | .mk name _ _ _ => name

def isNonRetryable (error : RecordedError) (policy : RetryPolicy) : Bool :=
  errorName error == "NonRetryableError" || policy.nonRetryableErrorNames.contains (errorName error)

/-- `Math.round` of a duration. -/
def roundMs (duration : Rat) : Nat := (duration + 1 / 2).floor.toNat

/-- The wait after a failed attempt; `draw` is what the random source answers. -/
def computeBackoffMs (policy : RetryPolicy) (failedAttempt : Int) (draw : Rat) : Nat :=
  let exponential := policy.initialIntervalMs * policy.backoffCoefficient ^ (failedAttempt - 1)
  let capped := min exponential policy.maxIntervalMs
  if policy.jitter = 0 then roundMs capped
  else roundMs (min (capped * (1 + policy.jitter * (2 * draw - 1))) policy.maxIntervalMs)

def decideRetry (policy : RetryPolicy) (failedAttempt : Int) (error : RecordedError) (draw : Rat) : RetryDecision :=
  if isNonRetryable error policy then .giveUp .nonRetryable
  else if (policy.maxAttempts : Int) ≤ failedAttempt then .giveUp .maxAttemptsExhausted
  else .retry (computeBackoffMs policy failedAttempt draw)

end Retries

section Deliveries

/-- A registered step; its handler is what the environment answers. -/
structure StepDefinition where
  retry : Option RetryPolicy

/-- What became of one delivery of a step task. -/
inductive StepTaskOutcome where
  | completed (attempt : Nat)
  | retryScheduled (attempt delayMs : Nat) (retryAt : Instant)
  | failed (attempt : Nat)
  | deadLettered (attempt deadLetterId : Nat)
  | alreadyRecorded
  | leaseLost

/-- Where the handling of a delivery stands. -/
inductive StepPhase where
  | delivered
  | resultFound
  | unrecorded
  | numbered (attempt : Nat)
  | handling (attempt : Nat)
  | succeeded (attempt : Nat) (result : JsValue)
  | acknowledging (attempt : Nat) (recorded : Bool)
  | caught (attempt : Nat) (error : RecordedError)
  | retrying (attempt delayMs : Nat) (retryAt : Instant)
  | givingUp (attempt : Nat) (error : RecordedError) (reason : GiveUpReason)
  | settling (attempt : Nat) (recorded : Bool)
  | reported (outcome : StepTaskOutcome)
  | rejected
  | returned

/-- One delivery of a step task, whether it was taken after the run closed, whether the step's
handler was called, whether it recorded the result of the step, and what it reported. -/
structure StepDelivery where
  task : LeasedTask
  afterClosing : Bool
  stepId : String
  stepType : String
  attemptOffset : Nat
  phase : StepPhase
  invoked : Bool
  records : Bool
  report : Option StepTaskOutcome

/-- What the handler of a step does. -/
inductive HandlerAnswer where
  | returned (result : JsValue)
  | threw (error : RecordedError)

/-- What a step of a delivery meets: the time, whether its signal is aborted by now, where a
statement fails and the error it fails with, what the handler does and what is drawn. -/
structure Surroundings where
  now : Instant
  aborted : Bool
  budget : Option Nat
  fault : RecordedError
  handler : HandlerAnswer
  draw : Rat

/-- A statement on its own fails. -/
def Surroundings.fails (surroundings : Surroundings) : Bool := surroundings.budget == some 0

def Database.hasRecordedResult (db : Database) (runId : RunId) (stepId : String) : Bool :=
  db.stepResults.any fun row => row.runId == runId && row.stepId == stepId

def StepDelivery.finish (delivery : StepDelivery) (outcome : StepTaskOutcome) : StepDelivery :=
  { delivery with phase := .reported outcome, report := some outcome }

def StepDelivery.goTo (delivery : StepDelivery) (phase : StepPhase) : StepDelivery := { delivery with phase := phase }

def attemptKey (attempt : Nat) : String := "attempt-" ++ toString attempt

def StepDelivery.resultOf (delivery : StepDelivery) (attempt : Nat) (outcome : StepOutcome) : RecordStepResultInput :=
  ⟨delivery.task.runId, delivery.stepId, attemptKey attempt, outcome⟩

/-- The recorder of the worker that handles a task. -/
def recorderAt (task : LeasedTask) (now : Instant) : RecorderOptions := ⟨some task.queueName, now⟩

def unregisteredStepError (stepType : String) : RecordedError :=
  .mk "NonRetryableError" (some ("no step registered for type \"" ++ stepType ++ "\"")) none none

def StepDelivery.policy (steps : String → Option StepDefinition) (delivery : StepDelivery) : RetryPolicy :=
  ((steps delivery.stepType).bind StepDefinition.retry).getD defaultRetryPolicy

/-- The failure of an attempt is written to the log of the run, before anything else follows
from it. -/
def StepDelivery.noteFailure (delivery : StepDelivery) (surroundings : Surroundings) (attempt : Nat)
    (error : RecordedError) (retryAt : Option Instant) (next : StepPhase) (db : Database) : StepDelivery × Database :=
  let input : RecordAttemptFailureInput := ⟨delivery.task.runId, delivery.stepId, attempt, error, retryAt⟩
  match withTransaction (recordFailureOn input surroundings.now) surroundings.budget db with
  | (.ok _, db') => (delivery.goTo next, db')
  | (.error _, db') => (delivery.goTo .rejected, db')

def deadLetterInput (delivery : StepDelivery) (attempt : Nat) (error : RecordedError) : AddDeadLetterInput :=
  ⟨delivery.task.namespaceId, delivery.task.runId, delivery.stepId, delivery.task.queueName, delivery.task.payload,
    attempt, error⟩

def StepDelivery.lease (delivery : StepDelivery) : TaskLease := ⟨delivery.task.id, delivery.task.leaseToken⟩

/-- The next step of `process`, and of `handleStepTask` once it reported. -/
def StepDelivery.advance (steps : String → Option StepDefinition) (surroundings : Surroundings)
    (delivery : StepDelivery) (db : Database) : StepDelivery × Database :=
  let now := surroundings.now
  let runId := delivery.task.runId
  match delivery.phase with
  | .delivered =>
    if surroundings.aborted then (delivery.finish .leaseLost, db)
    else if surroundings.fails then (delivery.goTo .rejected, db)
    else if db.hasRecordedResult runId delivery.stepId then (delivery.goTo .resultFound, db)
    else (delivery.goTo .unrecorded, db)
  | .resultFound =>
    if surroundings.fails then (delivery.goTo .rejected, db)
    else (delivery.finish .alreadyRecorded, (db.ack delivery.task.id delivery.task.leaseToken).2)
  | .unrecorded =>
    if surroundings.fails then (delivery.goTo .rejected, db)
    else (delivery.goTo (.numbered (db.nextAttempt runId delivery.stepId)), db)
  | .numbered attempt =>
    match steps delivery.stepType with
    | none => (delivery.goTo (.caught attempt (unregisteredStepError delivery.stepType)), db)
    | some _ => ({ delivery with phase := .handling attempt, invoked := true }, db)
  | .handling attempt =>
    if surroundings.aborted then (delivery.goTo (.caught attempt surroundings.fault), db)
    else match surroundings.handler with
      | .returned result => (delivery.goTo (.succeeded attempt result), db)
      | .threw error => (delivery.goTo (.caught attempt error), db)
  | .succeeded attempt result =>
    match recordStepResult (recorderAt delivery.task now) (delivery.resultOf attempt (.completed result))
        surroundings.budget db with
    | (.ok answer, db') =>
      ({ delivery with phase := .acknowledging attempt answer.recorded, records := delivery.records || answer.recorded }, db')
    | (.error _, db') => (delivery.goTo (.caught attempt surroundings.fault), db')
  | .acknowledging attempt recorded =>
    if surroundings.fails then (delivery.goTo (.caught attempt surroundings.fault), db)
    else
      let acked := db.ack delivery.task.id delivery.task.leaseToken
      let outcome := if recorded then .completed attempt else .alreadyRecorded
      (delivery.finish (if acked.1 then outcome else .leaseLost), acked.2)
  | .caught attempt error =>
    if surroundings.aborted then (delivery.finish .leaseLost, db)
    else match decideRetry (delivery.policy steps) (attempt - delivery.attemptOffset) error surroundings.draw with
      | .retry delayMs =>
        match now.after delayMs with
        | none => (delivery.goTo .rejected, db)
        | some retryAt =>
          delivery.noteFailure surroundings attempt error (some retryAt) (.retrying attempt delayMs retryAt) db
      | .giveUp reason => delivery.noteFailure surroundings attempt error none (.givingUp attempt error reason) db
  | .retrying attempt delayMs retryAt =>
    if surroundings.fails then (delivery.goTo .rejected, db)
    else
      let nacked := db.nack now delivery.task.id delivery.task.leaseToken delayMs
      (delivery.finish (if nacked.1 then .retryScheduled attempt delayMs retryAt else .leaseLost), nacked.2)
  | .givingUp attempt error .nonRetryable =>
    match recordStepResult (recorderAt delivery.task now) (delivery.resultOf attempt (.failed error false))
        surroundings.budget db with
    | (.ok answer, db') =>
      ({ delivery with phase := .settling attempt answer.recorded, records := delivery.records || answer.recorded }, db')
    | (.error _, db') => (delivery.goTo .rejected, db')
  | .givingUp attempt error .maxAttemptsExhausted =>
    let exhausted := recordStepResultOn (recorderAt delivery.task now) (delivery.resultOf attempt (.failed error true))
    match addAndAck (deadLetterInput delivery attempt error) delivery.lease (discard exhausted) now
        surroundings.budget db with
    | (.ok deadLetterId, db') => (delivery.finish (.deadLettered attempt deadLetterId), db')
    | (.error (.raised .leaseLost), db') => (delivery.finish .leaseLost, db')
    | (.error _, db') => (delivery.goTo .rejected, db')
  | .settling attempt recorded =>
    if surroundings.fails then (delivery.goTo .rejected, db)
    else
      let acked := db.ack delivery.task.id delivery.task.leaseToken
      (delivery.finish (if recorded then .failed attempt else .alreadyRecorded), acked.2)
  | .reported outcome =>
    match outcome with
    | .completed _ | .failed _ | .alreadyRecorded =>
      if surroundings.fails then (delivery.goTo .rejected, db)
      else (delivery.goTo .returned, (db.enqueue now delivery.task.namespaceId runId delivery.task.queueName
        (.workflowTask .stepCompleted) 0).2)
    | _ => (delivery.goTo .returned, db)
  | .rejected | .returned => (delivery, db)

end Deliveries

end DurableExecution.Engine

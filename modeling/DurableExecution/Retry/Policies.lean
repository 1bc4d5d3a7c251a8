import Mathlib.Algebra.Order.Field.Rat
import Mathlib.Algebra.Order.Floor.Ring
import Mathlib.Data.Rat.Floor
import Mathlib.Tactic.Linarith
import DurableExecution.Engine.StepTaskProcessor

/-
This file models retry policies with every number that the checks let through, and the budgets of attempts that
they give to a step. It says which policies can be carried out.
-/

namespace DurableExecution.Retry

open Workflow (JsNumber Instant maxTimeMs)

section Numbers

/-- A number that is not negative, or `Infinity`. -/
inductive Extent where
  | finite (value : Rat)
  | infinite
  deriving DecidableEq

def Extent.atMost : Extent → Extent → Prop
  | _, .infinite => True
  | .infinite, .finite _ => False
  | .finite one, .finite two => one ≤ two

/-- `Math.min`. -/
def Extent.smaller : Extent → Extent → Extent
  | .infinite, other => other
  | one, .infinite => one
  | .finite one, .finite two => .finite (min one two)

/-- The product; `NaN`, which is nothing here, for `0 * Infinity`. -/
def Extent.times : Extent → Extent → Option Extent
  | .finite one, .finite two => some (.finite (one * two))
  | .finite one, .infinite => if one = 0 then none else some .infinite
  | .infinite, .finite two => if two = 0 then none else some .infinite
  | .infinite, .infinite => some .infinite

/-- `**` of a coefficient that is at least 1. -/
def Extent.power : Extent → Int → Extent
  | .finite value, exponent => .finite (value ^ exponent)
  | .infinite, exponent => if exponent = 0 then .finite 1 else if 0 < exponent then .infinite else .finite 0

/-- `Math.round`. -/
def Extent.round : Extent → Extent
  | .finite value => .finite (value + 1 / 2).floor
  | .infinite => .infinite

/-- The numbers that a comparison `0 < value` can hold for. -/
def extentOf : JsNumber → Option Extent
  | .posInf => some .infinite
  | .finite value => some (.finite value)
  | .nan | .negInf | .negZero => none

end Numbers

section Policies

/-- A retry policy that `resolveRetryPolicy` accepted. -/
structure RetryPolicy where
  initialIntervalMs : Extent
  backoffCoefficient : Extent
  maxIntervalMs : Extent
  maxAttempts : Nat
  jitter : Rat
  nonRetryableErrorNames : List String
  positive : ∀ value, initialIntervalMs = .finite value → 0 < value
  growing : (Extent.finite 1).atMost backoffCoefficient
  widest : initialIntervalMs.atMost maxIntervalMs
  counted : 0 < maxAttempts
  spread : 0 ≤ jitter ∧ jitter ≤ 1

/-- What a step declares. -/
structure GivenPolicy where
  initialIntervalMs : Option JsNumber
  backoffCoefficient : Option JsNumber
  maxIntervalMs : Option JsNumber
  maxAttempts : Option JsNumber
  jitter : Option JsNumber
  nonRetryableErrorNames : Option (List String)

instance (one two : Extent) : Decidable (one.atMost two) :=
  match one, two with
  | _, .infinite => isTrue trivial
  | .infinite, .finite _ => isFalse id
  | .finite one, .finite two => inferInstanceAs (Decidable (one ≤ two))

def positiveExtent (number : JsNumber) : Option { extent : Extent // ∀ value, extent = .finite value → 0 < value } :=
  match number with
  | .posInf => some ⟨.infinite, fun _ same => nomatch same⟩
  | .finite value => if positive : 0 < value then some ⟨.finite value, fun _ same => Extent.finite.inj same ▸ positive⟩ else none
  | .nan | .negInf | .negZero => none

def positiveInteger (number : JsNumber) : Option { count : Nat // 0 < count } :=
  match number with
  | .finite value =>
    if positive : value.den = 1 ∧ 0 < value.num then some ⟨value.num.toNat, by omega⟩ else none
  | .nan | .posInf | .negInf | .negZero => none

def unitFraction (number : JsNumber) : Option { fraction : Rat // 0 ≤ fraction ∧ fraction ≤ 1 } :=
  match number with
  | .finite value => if within : 0 ≤ value ∧ value ≤ 1 then some ⟨value, within⟩ else none
  | .negZero => some ⟨0, by decide⟩
  | .nan | .posInf | .negInf => none

/-- `resolveRetryPolicy`, with the message of the `RangeError` that it throws. -/
def resolveRetryPolicy (given : GivenPolicy) : Except String RetryPolicy :=
  let initial := given.initialIntervalMs.getD (.finite 1000)
  let coefficient := given.backoffCoefficient.getD (.finite 2)
  let widest := given.maxIntervalMs.getD (.finite 60000)
  let attempts := given.maxAttempts.getD (.finite 3)
  let jitter := given.jitter.getD (.finite (1 / 10))
  match positiveExtent initial with
  | none => .error ("initialIntervalMs must be positive, got " ++ initial.text)
  | some initialIntervalMs =>
    match extentOf coefficient with
    | none => .error ("backoffCoefficient must be at least 1, got " ++ coefficient.text)
    | some backoffCoefficient =>
      if growing : (Extent.finite 1).atMost backoffCoefficient then
        match extentOf widest with
        | none => .error ("maxIntervalMs (" ++ widest.text ++ ") must not be below initialIntervalMs (" ++ initial.text ++ ")")
        | some maxIntervalMs =>
          if wide : initialIntervalMs.1.atMost maxIntervalMs then
            match positiveInteger attempts with
            | none => .error ("maxAttempts must be a positive integer, got " ++ attempts.text)
            | some maxAttempts =>
              match unitFraction jitter with
              | none => .error ("jitter must be between 0 and 1, got " ++ jitter.text)
              | some fraction => .ok
                { initialIntervalMs := initialIntervalMs.1, backoffCoefficient, maxIntervalMs, maxAttempts := maxAttempts.1
                  jitter := fraction.1, nonRetryableErrorNames := given.nonRetryableErrorNames.getD []
                  positive := initialIntervalMs.2, growing, widest := wide, counted := maxAttempts.2, spread := fraction.2 }
          else .error ("maxIntervalMs (" ++ widest.text ++ ") must not be below initialIntervalMs (" ++ initial.text ++ ")")
      else .error ("backoffCoefficient must be at least 1, got " ++ coefficient.text)

/-- The capped wait before jitter and rounding. -/
def cappedWait (policy : RetryPolicy) (failedAttempt : Int) : Option Extent :=
  (policy.initialIntervalMs.times (policy.backoffCoefficient.power (failedAttempt - 1))).map fun exponential =>
    exponential.smaller policy.maxIntervalMs

/-- `computeBackoffMs`; `draw` is what the random source answers. Nothing stands for `NaN`. -/
def computeBackoffMs (policy : RetryPolicy) (failedAttempt : Int) (draw : Rat) : Option Extent :=
  match cappedWait policy failedAttempt with
  | none => none
  | some capped =>
    if policy.jitter = 0 then some capped.round
    else (capped.times (.finite (1 + policy.jitter * (2 * draw - 1)))).map fun spread => (spread.smaller policy.maxIntervalMs).round

inductive GiveUpReason where
  | nonRetryable
  | maxAttemptsExhausted
  deriving DecidableEq

inductive RetryDecision where
  | retry (delayMs : Option Extent)
  | giveUp (reason : GiveUpReason)

def isNonRetryable (errorName : String) (policy : RetryPolicy) : Bool :=
  errorName == "NonRetryableError" || policy.nonRetryableErrorNames.contains errorName

def decideRetry (policy : RetryPolicy) (failedAttempt : Int) (errorName : String) (draw : Rat) : RetryDecision :=
  if isNonRetryable errorName policy then .giveUp .nonRetryable
  else if (policy.maxAttempts : Int) ≤ failedAttempt then .giveUp .maxAttemptsExhausted
  else .retry (computeBackoffMs policy failedAttempt draw)

end Policies

section Attempts

/-- A failure of an attempt: the name of its error, what is drawn, and the time. -/
structure Failure where
  errorName : String
  draw : Rat
  now : Instant
  drawn : 0 ≤ draw ∧ draw < 1

/-- `new Date(clock.now().getTime() + delayMs)`, where it is a valid date. -/
def retryDate (now : Instant) : Option Extent → Option Instant
  | some (.finite delayMs) => now.after delayMs
  | some .infinite | none => none

/-- What `assertNonNegativeInteger` lets through. -/
def acceptsDelay : Option Extent → Bool
  | some (.finite delayMs) => delayMs.den == 1 && decide (0 ≤ delayMs)
  | some .infinite | none => false

inductive AttemptOutcome where
  | retryScheduled (attempt : Nat)
  | failed (attempt : Nat)
  | deadLettered (attempt : Nat)
  | rejected
  deriving DecidableEq

inductive StepStatus where
  | pending
  | failed
  | deadLettered
  deriving DecidableEq

/-- A step with the attempts that its log holds, the offset in the payload of its task and what became of it. -/
structure StepState where
  attempts : Nat
  attemptOffset : Nat
  status : StepStatus
  deriving DecidableEq

/-- The catch block of `process`. `recordFailure` writes the retry date as an ISO text, which throws for an invalid
date before anything is recorded; `nack` checks the delay after it. -/
def StepState.fail (policy : RetryPolicy) (failure : Failure) (state : StepState) : AttemptOutcome × StepState :=
  let attempt := state.attempts + 1
  match decideRetry policy (attempt - state.attemptOffset) failure.errorName failure.draw with
  | .retry delayMs =>
    match retryDate failure.now delayMs with
    | none => (.rejected, state)
    | some _ =>
      if acceptsDelay delayMs then (.retryScheduled attempt, { state with attempts := attempt })
      else (.rejected, { state with attempts := attempt })
  | .giveUp .nonRetryable => (.failed attempt, { state with attempts := attempt, status := .failed })
  | .giveUp .maxAttemptsExhausted => (.deadLettered attempt, { state with attempts := attempt, status := .deadLettered })

/-- `requeue` of the dead letter, which holds the number of attempts. -/
def StepState.requeue (state : StepState) : StepState :=
  match state.status with
  | .deadLettered => { state with attemptOffset := state.attempts, status := .pending }
  | .pending | .failed => state

/-- A step after so many failures, where every dead letter is requeued. -/
def afterFailures (policy : RetryPolicy) (failures : Nat → Failure) (start : StepState) : Nat → StepState
  | 0 => start
  | count + 1 => ((afterFailures policy failures start count).requeue.fail policy (failures count)).2

/-- What the failure with an index leads to. -/
def outcomeOf (policy : RetryPolicy) (failures : Nat → Failure) (start : StepState) (index : Nat) : AttemptOutcome :=
  ((afterFailures policy failures start index).requeue.fail policy (failures index)).1

end Attempts

section Statements

/-- A delay is a non-negative integer, not above the maximum, that `nack` accepts, and its retry instant is a date. -/
def GoodDelay (policy : RetryPolicy) (now : Instant) (delayMs : Option Extent) : Prop :=
  ∃ ms : Nat, delayMs = some (.finite ms) ∧ (Extent.finite ms).atMost policy.maxIntervalMs ∧ acceptsDelay delayMs = true ∧
    ∃ retryAt, retryDate now delayMs = some retryAt ∧ retryAt.ms = now.ms + ms

/-- A policy can be carried out as long as the clock is not past an instant. -/
structure CarriedOut (policy : RetryPolicy) (latest : Instant) : Prop where
  delays : ∀ now : Instant, now.ms ≤ latest.ms → ∀ failedAttempt : Int, failedAttempt < policy.maxAttempts →
    ∀ draw, 0 ≤ draw → draw < 1 → GoodDelay policy now (computeBackoffMs policy failedAttempt draw)
  steady : policy.jitter = 0 → ∀ one two : Int, one ≤ two → two < policy.maxAttempts → ∀ first second,
    ∃ shorter longer, computeBackoffMs policy one first = some shorter ∧ computeBackoffMs policy two second = some longer ∧
      shorter.atMost longer
  budgets : ∀ start failures,
    (∀ index, isNonRetryable (failures index).errorName policy = false ∧ (failures index).now.ms ≤ latest.ms) →
    ∀ index, outcomeOf policy failures ⟨start, start, .pending⟩ index =
      if policy.maxAttempts ∣ index + 1 then .deadLettered (start + index + 1) else .retryScheduled (start + index + 1)
  ends : ∀ state failure, isNonRetryable failure.errorName policy = true →
    (StepState.fail policy failure state).1 = .failed (state.attempts + 1) ∧ (StepState.fail policy failure state).2.status = .failed

/-- The longest wait that a delay may round from: below the half after the whole part of the maximum, and after the
last date. -/
def roundingBound (policy : RetryPolicy) (latest : Instant) : Int :=
  match policy.maxIntervalMs with
  | .finite value => min value.floor (maxTimeMs - latest.ms)
  | .infinite => maxTimeMs - latest.ms

/-- The wait after the last attempt that is retried is finite, and neither it nor what jitter makes of it rounds to
more than the maximum or past the last date. -/
def Workable (policy : RetryPolicy) (latest : Instant) : Prop :=
  ∃ longest, cappedWait policy (policy.maxAttempts - 1) = some (.finite longest) ∧
    (if policy.jitter = 0 then longest < roundingBound policy latest + 1 / 2
    else longest * (1 + policy.jitter) ≤ roundingBound policy latest + 1 / 2 ∨
      ∃ value, policy.maxIntervalMs = .finite value ∧ value < roundingBound policy latest + 1 / 2)

end Statements


section Delays

variable {policy : RetryPolicy} {latest now : Instant}

/-- A whole number of milliseconds after an instant is a date as long as it is not past the last one. -/
theorem after_whole (now : Instant) (ms : Nat) : (∃ retryAt, now.after (ms : Rat) = some retryAt ∧ retryAt.ms = now.ms + ms) ↔
    now.ms + ms ≤ maxTimeMs := by
  have lower := now.lower
  have sum : ((now.ms : Rat) + (ms : Rat)) = ((now.ms + ms : Int) : Rat) := by push_cast; rfl
  have whole : ∀ value : Int, (if 0 ≤ (value : Rat) then (value : Rat).floor else (value : Rat).ceil) = value := by
    intro value
    split
    · exact Rat.floor_intCast value
    · rw [Rat.ceil_eq_neg_floor_neg, ← Rat.intCast_neg, Rat.floor_intCast, neg_neg]
  rw [Instant.after, Workflow.timeClip, sum]
  simp only [whole, Rat.intCast_le_intCast]
  by_cases early : now.ms + ms ≤ maxTimeMs
  · have bounds : -maxTimeMs ≤ now.ms + ms ∧ now.ms + ms ≤ maxTimeMs := ⟨by omega, early⟩
    rw [if_pos bounds, dif_pos bounds]
    exact iff_of_true ⟨_, rfl, rfl⟩ early
  · rw [if_neg fun bounds => early bounds.2]
    exact iff_of_false (fun ⟨_, same, _⟩ => nomatch same) early

theorem roundingBound_nonneg (policy : RetryPolicy) (latest : Instant) : 0 ≤ roundingBound policy latest := by
  have upper := latest.upper
  rw [roundingBound]
  split
  · rename_i value widest
    have positive : 0 ≤ value := by
      cases initial : policy.initialIntervalMs with
      | infinite =>
        have wide := policy.widest
        rw [initial, widest] at wide
        exact wide.elim
      | finite start =>
        have wide := policy.widest
        rw [initial, widest] at wide
        exact (policy.positive start initial).le.trans wide
    have floor : 0 ≤ value.floor := Rat.le_floor_iff.mpr (by exact_mod_cast positive)
    omega
  · omega

theorem roundingBound_earlier (early : now.ms ≤ latest.ms) : roundingBound policy latest ≤ roundingBound policy now := by
  rw [roundingBound, roundingBound]
  split <;> omega

/-- A rounded wait is a good delay when it stays below the bound. -/
theorem goodDelay_round {wait : Rat} (positive : 0 ≤ wait) :
    GoodDelay policy now (some (Extent.finite wait).round) ↔ wait < roundingBound policy now + 1 / 2 := by
  have floor : 0 ≤ (wait + 1 / 2).floor := by
    apply Rat.le_floor_iff.mpr
    push_cast
    linarith
  obtain ⟨ms, isFloor⟩ := Int.eq_ofNat_of_zero_le floor
  have rounded : (Extent.finite wait).round = .finite (ms : Rat) := by
    rw [Extent.round, isFloor]
    rfl
  have below : wait < roundingBound policy now + 1 / 2 ↔ (ms : Int) ≤ roundingBound policy now := by
    have bound := Rat.floor_lt_iff (a := wait + 1 / 2) (x := roundingBound policy now + 1)
    rw [isFloor] at bound
    have same : (((roundingBound policy now + 1 : Int)) : Rat) = (roundingBound policy now : Rat) + 1 := by push_cast; rfl
    rw [same] at bound
    constructor
    · intro less
      have := bound.mpr (by linarith)
      exact Int.lt_add_one_iff.mp this
    · intro fits
      have := bound.mp (Int.lt_add_one_iff.mpr fits)
      linarith
  have within : (ms : Int) ≤ roundingBound policy now ↔
      (Extent.finite ms).atMost policy.maxIntervalMs ∧ now.ms + ms ≤ maxTimeMs := by
    rw [roundingBound]
    cases policy.maxIntervalMs with
    | infinite =>
      show (ms : Int) ≤ maxTimeMs - now.ms ↔ True ∧ now.ms + ms ≤ maxTimeMs
      rw [true_and, le_sub_iff_add_le']
    | finite value =>
      have floored : (ms : Int) ≤ value.floor ↔ (ms : Rat) ≤ value := by
        rw [Rat.le_floor_iff]
        rfl
      show (ms : Int) ≤ min value.floor (maxTimeMs - now.ms) ↔ (ms : Rat) ≤ value ∧ now.ms + ms ≤ maxTimeMs
      rw [le_min_iff, floored, le_sub_iff_add_le']
  rw [below, within, rounded]
  constructor
  · rintro ⟨delay, same, small, -, dated⟩
    have equal : ms = delay := by
      have values := Extent.finite.inj (Option.some.inj same)
      exact_mod_cast values
    cases equal
    exact ⟨small, (after_whole now ms).mp dated⟩
  · rintro ⟨small, early⟩
    refine ⟨ms, rfl, small, ?_, (after_whole now ms).mpr early⟩
    rw [acceptsDelay, Rat.den_natCast, beq_self_eq_true, Bool.true_and, decide_eq_true_iff]
    exact_mod_cast Nat.zero_le ms

theorem goodDelay_infinite : ¬ GoodDelay policy now (some .infinite) := by
  rintro ⟨ms, same, -⟩
  cases same

theorem goodDelay_nan : ¬ GoodDelay policy now none := by
  rintro ⟨ms, same, -⟩
  cases same

end Delays

section Waits

variable {policy : RetryPolicy} {latest now : Instant} {wait : Rat}

theorem Extent.power_nonneg {coefficient : Extent} (growing : (Extent.finite 1).atMost coefficient) {exponent : Int} {value : Rat}
    (powered : coefficient.power exponent = .finite value) : 0 ≤ value := by
  cases coefficient with
  | finite base =>
    have positive : (0 : Rat) ≤ base := zero_le_one.trans growing
    cases Extent.finite.inj powered
    exact zpow_nonneg positive exponent
  | infinite =>
    rw [Extent.power] at powered
    split at powered
    · cases powered
      exact zero_le_one
    · split at powered
      · cases powered
      · cases powered
        exact le_rfl

theorem Extent.power_mono {coefficient : Extent} (growing : (Extent.finite 1).atMost coefficient) {one two : Int} (order : one ≤ two) :
    (coefficient.power one).atMost (coefficient.power two) := by
  cases coefficient with
  | finite base => exact zpow_le_zpow_right₀ growing order
  | infinite =>
    rw [Extent.power, Extent.power]
    by_cases later : 0 < two
    · rw [if_neg (ne_of_gt later), if_pos later]
      cases (if one = 0 then Extent.finite 1 else if 0 < one then .infinite else .finite 0) <;> trivial
    · by_cases start : two = 0
      · rw [if_pos start]
        by_cases first : one = 0
        · rw [if_pos first]
          exact le_refl (1 : Rat)
        · rw [if_neg first, if_neg (by omega)]
          exact zero_le_one (α := Rat)
      · rw [if_neg (by omega), if_neg (by omega), if_neg start, if_neg later]
        exact le_refl (0 : Rat)

theorem Extent.smaller_mono {one two widest : Extent} (order : one.atMost two) : (one.smaller widest).atMost (two.smaller widest) := by
  cases one <;> cases two <;> cases widest
  all_goals first
    | exact trivial
    | exact order.elim
    | exact order
    | exact min_le_min_right _ order
    | exact min_le_right _ _
    | exact le_refl (_ : Rat)

theorem Extent.smaller_infinite {one two : Extent} (same : one.smaller two = .infinite) : two = .infinite := by
  cases one <;> cases two <;> first | rfl | cases same

/-- The capped waits of a finite interval exist, are not negative and do not get shorter. -/
theorem cappedWait_mono {initial : Rat} (starts : policy.initialIntervalMs = .finite initial) {one two : Int} (order : one ≤ two) :
    ∃ shorter longer, cappedWait policy one = some shorter ∧ cappedWait policy two = some longer ∧ shorter.atMost longer ∧
      ∀ value, shorter = .finite value → 0 ≤ value := by
  have positive := policy.positive initial starts
  have each : ∀ power : Extent, (Extent.finite initial).times power = some (match power with
      | .finite value => .finite (initial * value)
      | .infinite => .infinite) := by
    intro power
    cases power with
    | finite value => rfl
    | infinite => rw [Extent.times, if_neg positive.ne']
  have grows := Extent.power_mono policy.growing (show one - 1 ≤ two - 1 by omega)
  refine ⟨_, _, by rw [cappedWait, starts, each, Option.map_some], by rw [cappedWait, starts, each, Option.map_some], ?_, ?_⟩
  · apply Extent.smaller_mono
    cases first : policy.backoffCoefficient.power (one - 1) with
    | infinite =>
      rw [first] at grows
      cases second : policy.backoffCoefficient.power (two - 1) with
      | infinite => trivial
      | finite value =>
        rw [second] at grows
        exact grows.elim
    | finite less =>
      rw [first] at grows
      cases second : policy.backoffCoefficient.power (two - 1) with
      | infinite => trivial
      | finite more =>
        rw [second] at grows
        exact mul_le_mul_of_nonneg_left grows positive.le
  · intro value same
    cases first : policy.backoffCoefficient.power (one - 1) with
    | infinite =>
      rw [first] at same
      have wide := policy.widest
      rw [starts] at wide
      have own : policy.maxIntervalMs = .finite value := same
      rw [own] at wide
      exact positive.le.trans wide
    | finite power =>
      rw [first] at same
      have nonneg : 0 ≤ initial * power := mul_nonneg positive.le (Extent.power_nonneg policy.growing first)
      cases widest : policy.maxIntervalMs with
      | infinite =>
        rw [widest] at same
        cases same
        exact nonneg
      | finite bound =>
        have wide := policy.widest
        rw [starts, widest] at wide
        rw [widest] at same
        cases same
        exact le_min nonneg (positive.le.trans wide)

theorem cappedWait_infinite (starts : policy.initialIntervalMs = .infinite) (failedAttempt : Int) :
    cappedWait policy failedAttempt ≠ some (.finite wait) := by
  have wide := policy.widest
  intro same
  cases widest : policy.maxIntervalMs with
  | finite value =>
    rw [starts, widest] at wide
    exact wide.elim
  | infinite =>
    rw [cappedWait, starts, widest] at same
    cases power : policy.backoffCoefficient.power (failedAttempt - 1) with
    | infinite =>
      rw [power] at same
      cases same
    | finite value =>
      rw [power, Extent.times] at same
      split at same <;> cases same

/-- Up to the last retry the waits are at most that one. -/
theorem cappedWait_below {longest : Rat} (last : cappedWait policy (policy.maxAttempts - 1) = some (.finite longest))
    {failedAttempt : Int} (retried : failedAttempt < policy.maxAttempts) :
    ∃ wait, cappedWait policy failedAttempt = some (.finite wait) ∧ 0 ≤ wait ∧ wait ≤ longest := by
  cases starts : policy.initialIntervalMs with
  | infinite => exact absurd last (cappedWait_infinite starts _)
  | finite initial =>
    obtain ⟨shorter, longer, first, second, order, positive⟩ :=
      cappedWait_mono starts (show failedAttempt ≤ policy.maxAttempts - 1 by omega)
    rw [last] at second
    cases second
    cases shorter with
    | infinite => exact order.elim
    | finite wait => exact ⟨wait, first, positive wait rfl, order⟩

/-- What jitter makes of a finite wait: the smaller one of the spread wait and the maximum, and not negative. -/
theorem spread_wait {draw : Rat} {failedAttempt : Int} (found : cappedWait policy failedAttempt = some (.finite wait))
    (positive : 0 ≤ wait) (drawn : 0 ≤ draw) (jittered : policy.jitter ≠ 0) :
    ∃ spread, computeBackoffMs policy failedAttempt draw = some (Extent.finite spread).round ∧ 0 ≤ spread ∧
      spread ≤ wait * (1 + policy.jitter * (2 * draw - 1)) ∧ (∀ bound, policy.maxIntervalMs = .finite bound → spread ≤ bound) ∧
      ∀ less, less ≤ wait * (1 + policy.jitter * (2 * draw - 1)) → (∀ bound, policy.maxIntervalMs = .finite bound → less ≤ bound) →
        less ≤ spread := by
  have factor : 0 ≤ 1 + policy.jitter * (2 * draw - 1) := by nlinarith [policy.spread.1, policy.spread.2]
  have product := mul_nonneg positive factor
  rw [computeBackoffMs, found]
  simp only [if_neg jittered, Extent.times, Option.map_some]
  cases widest : policy.maxIntervalMs with
  | infinite => exact ⟨_, rfl, product, le_rfl, (fun _ same => nomatch same), fun _ below _ => below⟩
  | finite bound =>
    refine ⟨_, rfl, le_min product ?_, min_le_left _ _, ?_, fun less below within => le_min below (within bound rfl)⟩
    · have wide := policy.widest
      cases starts : policy.initialIntervalMs with
      | infinite => exact absurd found (cappedWait_infinite starts _)
      | finite initial =>
        rw [starts, widest] at wide
        exact (policy.positive initial starts).le.trans wide
    · intro other same
      cases same
      exact min_le_right _ _

/-- The delays of a workable policy are good. -/
theorem Workable.delays (workable : Workable policy latest) (early : now.ms ≤ latest.ms) {failedAttempt : Int}
    (retried : failedAttempt < policy.maxAttempts) {draw : Rat} (drawn : 0 ≤ draw ∧ draw < 1) :
    GoodDelay policy now (computeBackoffMs policy failedAttempt draw) := by
  obtain ⟨longest, last, fits⟩ := workable
  obtain ⟨wait, found, positive, below⟩ := cappedWait_below last retried
  have bound : (roundingBound policy latest : Rat) ≤ roundingBound policy now := by
    exact_mod_cast roundingBound_earlier early
  by_cases plain : policy.jitter = 0
  · rw [if_pos plain] at fits
    rw [computeBackoffMs, found]
    simp only [if_pos plain]
    rw [goodDelay_round positive]
    linarith
  · rw [if_neg plain] at fits
    obtain ⟨spread, computed, nonneg, small, capped, -⟩ := spread_wait found positive drawn.1 plain
    have above : 0 < policy.jitter := lt_of_le_of_ne policy.spread.1 (Ne.symm plain)
    have some' : (0 : Rat) ≤ roundingBound policy latest := by exact_mod_cast roundingBound_nonneg policy latest
    rw [computed, goodDelay_round nonneg]
    rcases fits with fits | ⟨widest, finite, fits⟩
    · rcases eq_or_lt_of_le positive with zero | some''
      · rw [← zero, zero_mul] at small
        linarith
      · have slower : wait * (1 + policy.jitter * (2 * draw - 1)) < wait * (1 + policy.jitter) := by
          apply mul_lt_mul_of_pos_left _ some''
          nlinarith
        have shorter : wait * (1 + policy.jitter) ≤ longest * (1 + policy.jitter) := by
          apply mul_le_mul_of_nonneg_right below
          linarith
        linarith
    · have under := capped widest finite
      linarith

/-- Draws come as close to the largest spread as needed. -/
theorem draw_reaching {longest jitter bound : Rat} (large : 0 < longest) (above : 0 < jitter) (wide : bound < longest * (1 + jitter)) :
    ∃ draw : Rat, 0 ≤ draw ∧ draw < 1 ∧ bound ≤ longest * (1 + jitter * (2 * draw - 1)) := by
  obtain ⟨edge, isEdge⟩ : ∃ edge, edge = ((bound / longest - 1) / jitter + 1) / 2 := ⟨_, rfl⟩
  have slope : jitter * (2 * edge - 1) = bound / longest - 1 := by
    rw [isEdge]
    field_simp
    ring
  have ratio : bound / longest < 1 + jitter := (div_lt_iff₀' large).mpr wide
  have below : edge < 1 := by
    have less : jitter * (2 * edge - 1) < jitter * 1 := by linarith
    have less := lt_of_mul_lt_mul_left less above.le
    linarith
  refine ⟨max 0 edge, le_max_left _ _, max_lt zero_lt_one below, ?_⟩
  have steeper : jitter * (2 * edge - 1) ≤ jitter * (2 * max 0 edge - 1) := by
    apply mul_le_mul_of_nonneg_left _ above.le
    linarith [le_max_right 0 edge]
  calc bound = longest * (bound / longest) := by field_simp
    _ = longest * (1 + jitter * (2 * edge - 1)) := by rw [slope]; ring
    _ ≤ longest * (1 + jitter * (2 * max 0 edge - 1)) := by
        apply mul_le_mul_of_nonneg_left _ large.le
        linarith

/-- With the widest draws a policy whose delays are all good is workable. -/
theorem workable_of_delays (good : ∀ draw, 0 ≤ draw → draw < 1 →
    GoodDelay policy latest (computeBackoffMs policy (policy.maxAttempts - 1) draw)) : Workable policy latest := by
  cases last : cappedWait policy (policy.maxAttempts - 1) with
  | none =>
    have none' := good 0 le_rfl zero_lt_one
    rw [computeBackoffMs, last] at none'
    exact absurd none' goodDelay_nan
  | some longest =>
    cases longest with
    | infinite =>
      have half := good (1 / 2) (by norm_num) (by norm_num)
      have same : (1 : Rat) + policy.jitter * (2 * (1 / 2) - 1) = 1 := by ring
      have widest : policy.maxIntervalMs = .infinite := by
        rw [cappedWait, Option.map_eq_some_iff] at last
        obtain ⟨exponential, -, capped⟩ := last
        exact Extent.smaller_infinite capped
      rw [computeBackoffMs, last] at half
      simp only [same, Extent.times, if_neg (one_ne_zero (α := Rat)), Option.map_some, widest] at half
      split at half
      · exact absurd half goodDelay_infinite
      · exact absurd half goodDelay_infinite
    | finite longest =>
      refine ⟨longest, last, ?_⟩
      obtain ⟨wait, found, positive, -⟩ := cappedWait_below last (show (policy.maxAttempts - 1 : Int) < policy.maxAttempts by omega)
      rw [last] at found
      cases found
      have some' : (0 : Rat) ≤ roundingBound policy latest := by exact_mod_cast roundingBound_nonneg policy latest
      by_cases plain : policy.jitter = 0
      · rw [if_pos plain]
        have zero := good 0 le_rfl zero_lt_one
        rw [computeBackoffMs, last] at zero
        simp only [if_pos plain] at zero
        exact (goodDelay_round positive).mp zero
      · rw [if_neg plain]
        by_contra neither
        obtain ⟨wide, capped⟩ := not_or.mp neither
        have wide := not_le.mp wide
        have above : 0 < policy.jitter := lt_of_le_of_ne policy.spread.1 (Ne.symm plain)
        have large : 0 < longest := by
          rcases eq_or_lt_of_le positive with zero | large
          · rw [← zero, zero_mul] at wide
            linarith
          · exact large
        obtain ⟨draw, drawn, below, reaches⟩ : ∃ draw : Rat, 0 ≤ draw ∧ draw < 1 ∧
            (roundingBound policy latest : Rat) + 1 / 2 ≤ longest * (1 + policy.jitter * (2 * draw - 1)) :=
          draw_reaching large above wide
        obtain ⟨spread, computed, nonneg, -, -, greatest⟩ := spread_wait last positive drawn plain
        have fits := good draw drawn below
        rw [computed, goodDelay_round nonneg] at fits
        apply absurd fits
        apply not_lt.mpr
        apply greatest _ reaches
        intro bound widest
        exact not_lt.mp fun less => capped ⟨bound, widest, less⟩

/-- Without jitter the delays do not get shorter. -/
theorem Workable.steady (workable : Workable policy latest) (plain : policy.jitter = 0) {one two : Int} (order : one ≤ two)
    (first second : Rat) :
    ∃ shorter longer, computeBackoffMs policy one first = some shorter ∧ computeBackoffMs policy two second = some longer ∧
      shorter.atMost longer := by
  obtain ⟨longest, last, -⟩ := workable
  obtain ⟨initial, starts⟩ : ∃ initial, policy.initialIntervalMs = .finite initial := by
    cases starts : policy.initialIntervalMs with
    | infinite => exact absurd last (cappedWait_infinite starts _)
    | finite initial => exact ⟨initial, rfl⟩
  obtain ⟨shorter, longer, earlier, later, below, -⟩ := cappedWait_mono starts order
  refine ⟨shorter.round, longer.round, ?_, ?_, ?_⟩
  · rw [computeBackoffMs, earlier]
    exact if_pos plain
  · rw [computeBackoffMs, later]
    exact if_pos plain
  · cases shorter <;> cases longer
    · show (((_ : Rat).floor : Int) : Rat) ≤ ((_ : Rat).floor : Int)
      exact_mod_cast Rat.floor_monotone (add_le_add_left (show (_ : Rat) ≤ _ from below) (1 / 2))
    · trivial
    · exact below.elim
    · trivial

end Waits

section RationalPolicies

/-- The policies whose numbers are all finite, as the step task processor uses them. -/
def finitePolicy (policy : Engine.RetryPolicy) : RetryPolicy where
  initialIntervalMs := .finite policy.initialIntervalMs
  backoffCoefficient := .finite policy.backoffCoefficient
  maxIntervalMs := .finite policy.maxIntervalMs
  maxAttempts := policy.maxAttempts
  jitter := policy.jitter
  nonRetryableErrorNames := policy.nonRetryableErrorNames
  positive _ same := Extent.finite.inj same ▸ policy.positiveInterval
  growing := policy.growing
  widest := policy.widest
  counted := policy.positiveAttempts
  spread := policy.spread

theorem round_roundMs {duration : Rat} (positive : 0 ≤ duration) : (Extent.finite duration).round = .finite (Engine.roundMs duration) := by
  have floor : 0 ≤ (duration + 1 / 2).floor := by
    apply Rat.le_floor_iff.mpr
    push_cast
    linarith
  rw [Extent.round, Engine.roundMs]
  congr 1
  exact_mod_cast (Int.toNat_of_nonneg floor).symm

/-- For finite policies the delay is the one that the step task processor computes. -/
theorem computeBackoffMs_finite (policy : Engine.RetryPolicy) (failedAttempt : Int) {draw : Rat} (drawn : 0 ≤ draw) :
    computeBackoffMs (finitePolicy policy) failedAttempt draw = some (.finite (Engine.computeBackoffMs policy failedAttempt draw)) := by
  have wide : 0 ≤ policy.maxIntervalMs := policy.positiveInterval.le.trans policy.widest
  have power : 0 ≤ policy.backoffCoefficient ^ (failedAttempt - 1) := zpow_nonneg (zero_le_one.trans policy.growing) _
  have capped : 0 ≤ min (policy.initialIntervalMs * policy.backoffCoefficient ^ (failedAttempt - 1)) policy.maxIntervalMs :=
    le_min (mul_nonneg policy.positiveInterval.le power) wide
  have factor : 0 ≤ 1 + policy.jitter * (2 * draw - 1) := by nlinarith [policy.spread.1, policy.spread.2]
  have found : cappedWait (finitePolicy policy) failedAttempt =
      some (.finite (min (policy.initialIntervalMs * policy.backoffCoefficient ^ (failedAttempt - 1)) policy.maxIntervalMs)) := rfl
  rw [computeBackoffMs, Engine.computeBackoffMs, found]
  by_cases plain : policy.jitter = 0
  · simp only [if_pos plain, show (finitePolicy policy).jitter = policy.jitter from rfl]
    rw [round_roundMs capped]
  · simp only [if_neg plain, show (finitePolicy policy).jitter = policy.jitter from rfl, Extent.times, Option.map_some]
    rw [← round_roundMs (le_min (mul_nonneg capped factor) wide)]
    rfl

end RationalPolicies

section Budgets

variable {policy : RetryPolicy} {latest : Instant}

theorem fail_retried {failure : Failure} {state : StepState} (retryable : isNonRetryable failure.errorName policy = false)
    (retried : ((state.attempts + 1 : Nat) : Int) - state.attemptOffset < policy.maxAttempts)
    (good : GoodDelay policy failure.now
      (computeBackoffMs policy (((state.attempts + 1 : Nat) : Int) - state.attemptOffset) failure.draw)) :
    state.fail policy failure = (.retryScheduled (state.attempts + 1), { state with attempts := state.attempts + 1 }) := by
  obtain ⟨ms, -, -, accepted, retryAt, dated, -⟩ := good
  have decided : decideRetry policy (((state.attempts + 1 : Nat) : Int) - state.attemptOffset) failure.errorName failure.draw =
      .retry (computeBackoffMs policy (((state.attempts + 1 : Nat) : Int) - state.attemptOffset) failure.draw) := by
    rw [decideRetry, retryable, if_neg Bool.false_ne_true, if_neg (not_le.mpr retried)]
  rw [StepState.fail]
  simp only [decided, dated, accepted, if_true]

theorem fail_exhausted {failure : Failure} {state : StepState} (retryable : isNonRetryable failure.errorName policy = false)
    (exhausted : (policy.maxAttempts : Int) ≤ ((state.attempts + 1 : Nat) : Int) - state.attemptOffset) :
    state.fail policy failure =
      (.deadLettered (state.attempts + 1), { state with attempts := state.attempts + 1, status := .deadLettered }) := by
  have decided : decideRetry policy (((state.attempts + 1 : Nat) : Int) - state.attemptOffset) failure.errorName failure.draw =
      .giveUp .maxAttemptsExhausted := by
    rw [decideRetry, retryable, if_neg Bool.false_ne_true, if_pos exhausted]
  rw [StepState.fail]
  simp only [decided]

theorem fail_ended {failure : Failure} {state : StepState} (ended : isNonRetryable failure.errorName policy = true) :
    state.fail policy failure = (.failed (state.attempts + 1), { state with attempts := state.attempts + 1, status := .failed }) := by
  have decided : decideRetry policy (((state.attempts + 1 : Nat) : Int) - state.attemptOffset) failure.errorName failure.draw =
      .giveUp .nonRetryable := by
    rw [decideRetry, ended, if_pos rfl]
  rw [StepState.fail]
  simp only [decided]

/-- What one failure in a budget leads to, and the state that the next one meets. -/
theorem budget_step (workable : Workable policy latest) {failure : Failure} (retryable : isNonRetryable failure.errorName policy = false)
    (early : failure.now.ms ≤ latest.ms) (start count : Nat) :
    (StepState.fail policy failure ⟨start + count, start + policy.maxAttempts * (count / policy.maxAttempts), .pending⟩).1 =
      (if policy.maxAttempts ∣ count + 1 then .deadLettered (start + count + 1) else .retryScheduled (start + count + 1)) ∧
    (StepState.fail policy failure ⟨start + count, start + policy.maxAttempts * (count / policy.maxAttempts), .pending⟩).2.requeue =
      ⟨start + (count + 1), start + policy.maxAttempts * ((count + 1) / policy.maxAttempts), .pending⟩ := by
  have positive := policy.counted
  have used : count % policy.maxAttempts + policy.maxAttempts * (count / policy.maxAttempts) = count := Nat.mod_add_div _ _
  have small := Nat.mod_lt count positive
  have place : (((start + count + 1 : Nat) : Int) - ((start + policy.maxAttempts * (count / policy.maxAttempts) : Nat) : Int)) =
      ((count % policy.maxAttempts + 1 : Nat) : Int) := by omega
  by_cases last : policy.maxAttempts ∣ count + 1
  · have exhausted : count % policy.maxAttempts + 1 = policy.maxAttempts := by
      have divides : policy.maxAttempts ∣ count % policy.maxAttempts + 1 :=
        (Nat.dvd_add_left ⟨_, rfl⟩).mp (show policy.maxAttempts ∣ count % policy.maxAttempts + 1 +
          policy.maxAttempts * (count / policy.maxAttempts) by rwa [Nat.add_right_comm, used])
      have atLeast := Nat.le_of_dvd (Nat.succ_pos _) divides
      omega
    rw [fail_exhausted retryable (by rw [place]; omega), if_pos last]
    refine ⟨rfl, ?_⟩
    have whole : policy.maxAttempts * ((count + 1) / policy.maxAttempts) = count + 1 := Nat.mul_div_cancel' last
    rw [whole]
    rfl
  · have retried : count % policy.maxAttempts + 1 < policy.maxAttempts := by
      apply lt_of_le_of_ne small
      intro exhausted
      apply last
      refine ⟨count / policy.maxAttempts + 1, ?_⟩
      rw [Nat.mul_succ]
      omega
    have same : (count + 1) / policy.maxAttempts = count / policy.maxAttempts := by
      rw [Nat.succ_div, if_neg last, Nat.add_zero]
    rw [fail_retried retryable (by rw [place]; omega) (workable.delays early (by rw [place]; omega) failure.drawn), if_neg last, same]
    exact ⟨rfl, rfl⟩

/-- A workable policy gives every budget all of its attempts, by induction on the failures. -/
theorem Workable.budgets (workable : Workable policy latest) (start : Nat) {failures : Nat → Failure}
    (within : ∀ index, isNonRetryable (failures index).errorName policy = false ∧ (failures index).now.ms ≤ latest.ms) (index : Nat) :
    (afterFailures policy failures ⟨start, start, .pending⟩ index).requeue =
      ⟨start + index, start + policy.maxAttempts * (index / policy.maxAttempts), .pending⟩ := by
  induction index with
  | zero =>
    rw [afterFailures, Nat.zero_div, Nat.mul_zero]
    rfl
  | succ index ih =>
    rw [afterFailures, ih]
    exact (budget_step workable (within index).1 (within index).2 start index).2

/-- A policy can be carried out up to an instant exactly when it is workable there. -/
theorem carriedOut_iff (policy : RetryPolicy) (latest : Instant) : CarriedOut policy latest ↔ Workable policy latest := by
  constructor
  · intro carried
    apply workable_of_delays
    intro draw drawn below
    exact carried.delays latest le_rfl _ (by omega) draw drawn below
  · intro workable
    refine ⟨?_, ?_, ?_, ?_⟩
    · intro now early failedAttempt retried draw drawn below
      exact workable.delays early retried ⟨drawn, below⟩
    · intro plain one two order _ first second
      exact workable.steady plain order first second
    · intro start failures within index
      rw [outcomeOf, workable.budgets start within]
      exact (budget_step workable (within index).1 (within index).2 start index).1
    · intro state failure ended
      rw [fail_ended ended]
      exact ⟨rfl, rfl⟩

/-- `Infinity` passes the checks, but no date comes after it. -/
theorem infinite_interval_stuck : ¬ ∀ given policy, resolveRetryPolicy given = .ok policy → ∀ latest, CarriedOut policy latest := by
  intro always
  obtain ⟨policy, accepted, initial⟩ : ∃ policy,
      resolveRetryPolicy ⟨some .posInf, none, some .posInf, none, some (.finite 0), none⟩ = .ok policy ∧
        policy.initialIntervalMs = .infinite := by
    have coefficient : (Extent.finite 1).atMost (.finite 2) := show (1 : Rat) ≤ 2 by norm_num
    refine ⟨⟨.infinite, .finite 2, .infinite, 3, 0, [], (fun _ same => nomatch same), coefficient, trivial, by decide,
      by norm_num⟩, ?_, rfl⟩
    simp [resolveRetryPolicy, positiveExtent, extentOf, positiveInteger, unitFraction, Extent.atMost]
    rfl
  have carried := always _ policy accepted Instant.epoch
  obtain ⟨longest, last, -⟩ := workable_of_delays fun draw drawn below =>
    carried.delays Instant.epoch le_rfl (policy.maxAttempts - 1) (by omega) draw drawn below
  exact cappedWait_infinite initial _ last

end Budgets

end DurableExecution.Retry

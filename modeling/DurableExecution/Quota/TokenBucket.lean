import Mathlib.Algebra.Order.Field.Rat
import Mathlib.Algebra.Order.Floor.Ring
import Mathlib.Data.Rat.Floor
import Mathlib.Tactic.Linarith
import Mathlib.Tactic.FieldSimp
import DurableExecution.Workflow.Errors

/-
This file models the rate limiter, which keeps one token bucket for each key, and bounds what it
allows by the advance of the clock.
-/

namespace DurableExecution.Quota

open Workflow

section Limiter

structure TokenBucketConfig where
  ratePerSecond : JsNumber
  burst : JsNumber

/-- The numbers of a configuration that passed its check. -/
structure BucketLimits where
  rate : Rat
  burst : Nat
  positive : 0 < rate
  holdsOne : 1 ≤ burst

structure RateLimitDecision where
  allowed : Bool
  retryAfterMs : Int
  remaining : Int

structure BucketState where
  tokens : Rat
  updatedAtMs : Int

abbrev Buckets := String → Option BucketState

def rateError (config : TokenBucketConfig) : JsValue :=
  plainError "RangeError" ("ratePerSecond must be positive, got " ++ config.ratePerSecond.text)

def burstError (config : TokenBucketConfig) : JsValue :=
  plainError "RangeError" ("burst must be a positive integer, got " ++ config.burst.text)

def assertConfig (config : TokenBucketConfig) : Except JsValue BucketLimits :=
  match config.ratePerSecond with
  | .finite rate =>
    if positive : 0 < rate then
      match config.burst with
      | .finite burst =>
        if whole : burst.den = 1 ∧ 0 < burst.num then .ok ⟨rate, burst.num.toNat, positive, by omega⟩
        else .error (burstError config)
      | _ => .error (burstError config)
    else .error (rateError config)
  | _ => .error (rateError config)

/-- A clock that steps backwards refills nothing. -/
def refill (limits : BucketLimits) (bucket : BucketState) (nowMs : Int) : BucketState :=
  let elapsedMs := max 0 (nowMs - bucket.updatedAtMs)
  ⟨min limits.burst (bucket.tokens + elapsedMs * limits.rate / 1000), max bucket.updatedAtMs nowMs⟩

def spend (limits : BucketLimits) (bucket : BucketState) : BucketState × RateLimitDecision :=
  if 1 ≤ bucket.tokens then
    ({ bucket with tokens := bucket.tokens - 1 }, ⟨true, 0, ⌊bucket.tokens - 1⌋⟩)
  else
    let missing := 1 - bucket.tokens
    (bucket, ⟨false, ⌈missing / limits.rate * 1000⌉, 0⟩)

/-- One call of `take`, with the reading of the clock in it. -/
structure Take where
  key : String
  config : TokenBucketConfig
  nowMs : Int

def Take.perform (take : Take) (buckets : Buckets) : Buckets × Except JsValue RateLimitDecision :=
  match assertConfig take.config with
  | .error error => (buckets, .error error)
  | .ok limits =>
    let bucket := (buckets take.key).getD ⟨limits.burst, take.nowMs⟩
    let spent := spend limits (refill limits bucket take.nowMs)
    (Function.update buckets take.key (some spent.1), .ok spent.2)

def noBuckets : Buckets := fun _ => none

def runTakes (buckets : Buckets) : List Take → Buckets × List (Except JsValue RateLimitDecision)
  | [] => (buckets, [])
  | take :: rest =>
    let one := take.perform buckets
    let more := runTakes one.1 rest
    (more.1, one.2 :: more.2)

end Limiter

section Measures

/-- The takes of a key. -/
def ofKey (key : String) (takes : List Take) : List Take := takes.filter fun take => take.key == key

/-- What the takes of a key were answered. -/
def answersOf (key : String) (buckets : Buckets) : List Take → List (Except JsValue RateLimitDecision)
  | [] => []
  | take :: rest =>
    let one := take.perform buckets
    if take.key = key then one.2 :: answersOf key one.1 rest else answersOf key one.1 rest

def isAllowed : Except JsValue RateLimitDecision → Bool
  | .ok decision => decision.allowed
  | .error _ => false

/-- How many takes of a key are allowed. -/
def granted (key : String) (buckets : Buckets) (takes : List Take) : Nat :=
  (answersOf key buckets takes).countP isAllowed

def readings (key : String) (takes : List Take) : List Int := (ofKey key takes).map Take.nowMs

/-- The highest reading that the takes of a key have seen. -/
def highestReading (key : String) (takes : List Take) : Int :=
  match readings key takes with
  | [] => 0
  | first :: rest => rest.foldl max first

end Measures

section Buckets

variable {key : String} {config : TokenBucketConfig} {limits : BucketLimits} {bucket : BucketState}
  {buckets others : Buckets} {take : Take} {takes before span : List Take} {nowMs : Int}

structure BucketState.Within (limits : BucketLimits) (bucket : BucketState) : Prop where
  lower : 0 ≤ bucket.tokens
  upper : bucket.tokens ≤ limits.burst

theorem BucketLimits.one_le (limits : BucketLimits) : (1 : Rat) ≤ limits.burst := by
  exact_mod_cast limits.holdsOne

theorem BucketLimits.full_within (limits : BucketLimits) (nowMs : Int) : BucketState.Within limits ⟨limits.burst, nowMs⟩ :=
  ⟨by linarith [limits.one_le], le_refl _⟩

theorem refill_gain (limits : BucketLimits) (bucket : BucketState) (nowMs : Int) :
    0 ≤ ((max 0 (nowMs - bucket.updatedAtMs) : Int) : Rat) * limits.rate / 1000 := by
  have elapsed : (0 : Rat) ≤ ((max 0 (nowMs - bucket.updatedAtMs) : Int) : Rat) := by
    exact_mod_cast le_max_left 0 (nowMs - bucket.updatedAtMs)
  have rate := limits.positive.le
  positivity

theorem BucketState.Within.refill (within : bucket.Within limits) (nowMs : Int) : (refill limits bucket nowMs).Within limits := by
  have gain := refill_gain limits bucket nowMs
  have burst := limits.one_le
  exact ⟨le_min (by linarith) (by linarith [within.lower]), min_le_left _ _⟩

theorem BucketState.Within.spend (within : bucket.Within limits) : (spend limits bucket).1.Within limits := by
  unfold Quota.spend
  split
  · next enough => exact ⟨by dsimp only; linarith, by dsimp only; linarith [within.upper]⟩
  · exact within

/-- A refill adds what the clock advanced by. -/
theorem refill_bound (limits : BucketLimits) (bucket : BucketState) (nowMs : Int) : (refill limits bucket nowMs).tokens ≤
      bucket.tokens + ((refill limits bucket nowMs).updatedAtMs - bucket.updatedAtMs : Int) * limits.rate / 1000 := by
  have advance : max bucket.updatedAtMs nowMs - bucket.updatedAtMs = max 0 (nowMs - bucket.updatedAtMs) := by omega
  unfold refill
  dsimp only
  rw [advance]
  exact min_le_right _ _

/-- An allowed take costs a token. -/
theorem spend_cost (limits : BucketLimits) (bucket : BucketState) :
    (spend limits bucket).1.tokens + (if (spend limits bucket).2.allowed then 1 else 0) = bucket.tokens := by
  unfold spend
  split
  · simp
  · simp

theorem spend_updatedAt (limits : BucketLimits) (bucket : BucketState) : (spend limits bucket).1.updatedAtMs = bucket.updatedAtMs := by
  unfold spend
  split <;> rfl

theorem perform_ok (valid : assertConfig take.config = .ok limits) (buckets : Buckets) : take.perform buckets =
      (Function.update buckets take.key
          (some (spend limits (refill limits ((buckets take.key).getD ⟨limits.burst, take.nowMs⟩) take.nowMs)).1),
        .ok (spend limits (refill limits ((buckets take.key).getD ⟨limits.burst, take.nowMs⟩) take.nowMs)).2) := by
  unfold Take.perform
  rw [valid]

/-- A take leaves the buckets of other keys alone. -/
theorem perform_other (other : take.key ≠ key) (buckets : Buckets) : (take.perform buckets).1 key = buckets key := by
  unfold Take.perform
  split
  · rfl
  · exact Function.update_of_ne (Ne.symm other) _ _

/-- A take reads the bucket of its key alone. -/
theorem perform_local (same : buckets take.key = others take.key) :
    (take.perform buckets).1 take.key = (take.perform others).1 take.key ∧ (take.perform buckets).2 = (take.perform others).2 := by
  unfold Take.perform
  rw [← same]
  split
  · exact ⟨same, rfl⟩
  · simp only [Function.update_self, and_self]

/-- What happens to a key is decided by its own takes. -/
theorem runTakes_local (same : buckets key = others key) : (runTakes buckets takes).1 key = (runTakes others (ofKey key takes)).1 key ∧
      answersOf key buckets takes = (runTakes others (ofKey key takes)).2 := by
  induction takes generalizing buckets others with
  | nil => exact ⟨same, rfl⟩
  | cons take rest ih =>
    by_cases own : take.key = key
    · subst own
      obtain ⟨bucket, answer⟩ := perform_local same
      have kept : ofKey take.key (take :: rest) = take :: ofKey take.key rest := by
        simp only [ofKey, List.filter_cons, beq_self_eq_true, if_true]
      obtain ⟨last, answers⟩ := ih bucket
      rw [kept]
      simp only [runTakes, answersOf, if_true]
      exact ⟨last, by rw [answer, answers]⟩
    · have dropped : ofKey key (take :: rest) = ofKey key rest := by
        simp only [ofKey, List.filter_cons, beq_iff_eq, own, if_false]
      rw [dropped]
      simp only [runTakes, answersOf, if_neg own]
      exact ih ((perform_other own buckets).trans same)

theorem runTakes_append (buckets : Buckets) (before span : List Take) : runTakes buckets (before ++ span) =
      ((runTakes (runTakes buckets before).1 span).1, (runTakes buckets before).2 ++ (runTakes (runTakes buckets before).1 span).2) := by
  induction before generalizing buckets with
  | nil => rfl
  | cons take rest ih => simp only [List.cons_append, runTakes, ih]

theorem readings_own (own : take.key = key) (takes : List Take) : readings key (take :: takes) = take.nowMs :: readings key takes := by
  simp only [readings, ofKey, List.filter_cons, own, beq_self_eq_true, if_true, List.map_cons]

theorem readings_other (other : take.key ≠ key) (takes : List Take) : readings key (take :: takes) = readings key takes := by
  simp only [readings, ofKey, List.filter_cons, beq_iff_eq, other, if_false]

theorem granted_own (own : take.key = key) (buckets : Buckets) (takes : List Take) :
    granted key buckets (take :: takes) =
      granted key (take.perform buckets).1 takes + if isAllowed (take.perform buckets).2 then 1 else 0 := by
  simp only [granted, answersOf, if_pos own, List.countP_cons]

theorem granted_other (other : take.key ≠ key) (buckets : Buckets) (takes : List Take) :
    granted key buckets (take :: takes) = granted key (take.perform buckets).1 takes := by
  simp only [granted, answersOf, if_neg other]

theorem foldl_max_le {bound start : Int} {readings : List Int} (below : start ≤ bound) (all : ∀ reading ∈ readings, reading ≤ bound) :
    readings.foldl max start ≤ bound := by
  induction readings generalizing start with
  | nil => exact below
  | cons reading rest ih =>
    exact ih (max_le below (all reading List.mem_cons_self)) fun later listed => all later (List.mem_cons_of_mem _ listed)

/-- What the takes of a key have cost is paid by the tokens it had and by the advance of its highest reading. -/
structure Paid (limits : BucketLimits) (bucket : BucketState) (readings : List Int) (count : Nat) (last : BucketState) : Prop where
  within : last.Within limits
  highest : last.updatedAtMs = readings.foldl max bucket.updatedAtMs
  cost : (count : Rat) + last.tokens ≤ bucket.tokens + (last.updatedAtMs - bucket.updatedAtMs : Int) * limits.rate / 1000

theorem runTakes_paid (valid : assertConfig config = .ok limits) (alike : ∀ take ∈ takes, take.key = key → take.config = config)
    (held : buckets key = some bucket) (within : bucket.Within limits) :
    ∃ last, (runTakes buckets takes).1 key = some last ∧ Paid limits bucket (readings key takes) (granted key buckets takes) last := by
  induction takes generalizing buckets bucket with
  | nil => exact ⟨bucket, held, within, rfl, by simp [granted, answersOf]⟩
  | cons take rest ih =>
    have alikeRest : ∀ later ∈ rest, later.key = key → later.config = config :=
      fun later listed => alike later (List.mem_cons_of_mem _ listed)
    by_cases own : take.key = key
    · have performed := perform_ok (by rw [alike take List.mem_cons_self own]; exact valid) buckets
      rw [own, held, Option.getD_some] at performed
      have spent : (take.perform buckets).1 key = some (spend limits (refill limits bucket take.nowMs)).1 := by
        rw [performed]
        exact Function.update_self ..
      obtain ⟨last, ends, paid⟩ := ih alikeRest spent (within.refill take.nowMs).spend
      refine ⟨last, ends, paid.within, ?_, ?_⟩
      · rw [readings_own own, List.foldl_cons, paid.highest, spend_updatedAt]
        rfl
      · have cost := paid.cost
        have refilled := refill_bound limits bucket take.nowMs
        have token := spend_cost limits (refill limits bucket take.nowMs)
        rw [spend_updatedAt] at cost
        rw [granted_own own, performed]
        simp only [isAllowed]
        push_cast at cost refilled ⊢
        split at token <;> simp_all <;> linarith
    · rw [granted_other own, readings_other own]
      exact ih alikeRest ((perform_other own buckets).trans held) within

/-- The first take of a key finds its bucket full. -/
theorem runTakes_started (valid : assertConfig config = .ok limits) (alike : ∀ take ∈ takes, take.key = key → take.config = config)
    (unseen : buckets key = none) : (readings key takes = [] ∧ (runTakes buckets takes).1 key = none) ∨
      ∃ last, (runTakes buckets takes).1 key = some last ∧ last.Within limits ∧ readings key takes ≠ [] ∧
        last.updatedAtMs = highestReading key takes := by
  induction takes generalizing buckets with
  | nil => exact .inl ⟨rfl, unseen⟩
  | cons take rest ih =>
    have alikeRest : ∀ later ∈ rest, later.key = key → later.config = config :=
      fun later listed => alike later (List.mem_cons_of_mem _ listed)
    by_cases own : take.key = key
    · have performed := perform_ok (by rw [alike take List.mem_cons_self own]; exact valid) buckets
      rw [own, unseen, Option.getD_none] at performed
      have spent : (take.perform buckets).1 key =
          some (spend limits (refill limits ⟨limits.burst, take.nowMs⟩ take.nowMs)).1 := by
        rw [performed]
        exact Function.update_self ..
      obtain ⟨last, ends, paid⟩ := runTakes_paid valid alikeRest spent ((limits.full_within take.nowMs).refill take.nowMs).spend
      refine .inr ⟨last, ends, paid.within, by rw [readings_own own]; exact List.cons_ne_nil _ _, ?_⟩
      rw [paid.highest, spend_updatedAt, highestReading, readings_own own]
      simp only [refill, max_self]
    · rw [readings_other own]
      rcases ih alikeRest ((perform_other own buckets).trans unseen) with ⟨nothing, still⟩ | ⟨last, ends, within, seen, highest⟩
      · exact .inl ⟨nothing, still⟩
      · refine .inr ⟨last, ends, within, seen, ?_⟩
        rw [highest, highestReading, highestReading, readings_other own]

/-- The bucket that a take finds, once it is refilled. -/
theorem refilled_highest (valid : assertConfig config = .ok limits) (alike : ∀ take ∈ before, take.key = key → take.config = config)
    (own : take.key = key) :
    let found := ((runTakes noBuckets before).1 key).getD ⟨limits.burst, take.nowMs⟩
    found.Within limits ∧ (refill limits found take.nowMs).updatedAtMs = highestReading key (before ++ [take]) := by
  have joined : readings key (before ++ [take]) = readings key before ++ [take.nowMs] := by
    simp only [readings, ofKey, List.filter_append, List.filter_cons, own, beq_self_eq_true, if_true, List.filter_nil, List.map_append,
      List.map_cons, List.map_nil]
  rcases runTakes_started valid alike (rfl : noBuckets key = none) with ⟨nothing, still⟩ | ⟨last, ends, within, seen, highest⟩
  · simp only [still, Option.getD_none, refill, max_self, highestReading, joined, nothing, List.nil_append, List.foldl_nil, and_true]
    exact limits.full_within take.nowMs
  · simp only [ends, Option.getD_some, refill, highest]
    refine ⟨within, ?_⟩
    rw [highestReading, highestReading, joined]
    cases seenReadings : readings key before with
    | nil => exact absurd seenReadings seen
    | cons first rest => simp only [List.cons_append, List.foldl_append, List.foldl_cons, List.foldl_nil]

/-- Over any span a key is allowed its burst and what the clock has refilled. -/
theorem granted_bound (valid : assertConfig config = .ok limits)
    (alike : ∀ other ∈ before ++ take :: span, other.key = key → other.config = config) (own : take.key = key) :
    (granted key (runTakes noBuckets before).1 (take :: span) : Rat) ≤
      limits.burst + limits.rate * (highestReading key (before ++ take :: span) - highestReading key (before ++ [take]) : Int) / 1000 := by
  have alikeBefore : ∀ other ∈ before, other.key = key → other.config = config :=
    fun other listed => alike other (List.mem_append_left _ listed)
  have alikeSpan : ∀ other ∈ span, other.key = key → other.config = config :=
    fun other listed => alike other (List.mem_append_right _ (List.mem_cons_of_mem _ listed))
  obtain ⟨found, highest⟩ := refilled_highest valid alikeBefore own
  have performed := perform_ok (by rw [alike take (List.mem_append_right _ List.mem_cons_self) own]; exact valid)
    (runTakes noBuckets before).1
  rw [own] at performed
  generalize ((runTakes noBuckets before).1 key).getD ⟨limits.burst, take.nowMs⟩ = bucket at found highest performed
  have refilled := found.refill take.nowMs
  generalize refill limits bucket take.nowMs = full at highest performed refilled
  have spent : (take.perform (runTakes noBuckets before).1).1 key = some (spend limits full).1 := by
    rw [performed]
    exact Function.update_self ..
  obtain ⟨last, ends, paid⟩ := runTakes_paid valid alikeSpan spent refilled.spend
  -- the last highest reading is the one of the whole run
  have final : last.updatedAtMs = highestReading key (before ++ take :: span) := by
    rcases runTakes_started valid alike (rfl : noBuckets key = none) with ⟨nothing, -⟩ | ⟨whole, holds, -, -, top⟩
    · simp [readings, ofKey, own] at nothing
    · rw [runTakes_append] at holds
      simp only [runTakes] at holds
      rw [ends] at holds
      cases holds
      exact top
  have cost := paid.cost
  have token := spend_cost limits full
  rw [spend_updatedAt, final, highest] at cost
  rw [granted_own own, performed]
  simp only [isAllowed]
  have upper := refilled.upper
  have rest := paid.within.lower
  push_cast at cost ⊢
  split at token <;> simp_all <;> linarith

/-- The wait of a refused take is exact to the millisecond. -/
theorem spend_wait {refused waited : BucketState} (few : ¬ 1 ≤ refused.tokens) {waitMs : Nat}
    (later : waited = refill limits refused (refused.updatedAtMs + waitMs)) :
    (spend limits waited).2.allowed = true ↔ (spend limits refused).2.retryAfterMs ≤ waitMs := by
  have elapsed : max 0 (refused.updatedAtMs + waitMs - refused.updatedAtMs) = (waitMs : Int) := by omega
  have rate := limits.positive
  have enough : (spend limits waited).2.allowed = true ↔ 1 ≤ waited.tokens := by
    unfold spend
    split <;> simp_all
  have needed : 1 ≤ waited.tokens ↔ 1 ≤ refused.tokens + (waitMs : Rat) * limits.rate / 1000 := by
    rw [later, refill]
    dsimp only
    rw [elapsed, le_min_iff]
    simp [limits.one_le]
  have asked : (spend limits refused).2.retryAfterMs = ⌈(1 - refused.tokens) / limits.rate * 1000⌉ := by
    unfold spend
    rw [if_neg few]
  rw [enough, needed, asked, Int.ceil_le, Int.cast_natCast, div_mul_eq_mul_div, div_le_iff₀ rate]
  constructor
  · intro gained
    linarith
  · intro waits
    linarith

/-- Takes of other keys leave a bucket alone. -/
theorem runTakes_others (apart : ∀ take ∈ takes, take.key ≠ key) (buckets : Buckets) : (runTakes buckets takes).1 key = buckets key := by
  have nothing : ofKey key takes = [] := by
    rw [ofKey, List.filter_eq_nil_iff]
    intro take listed same
    exact apart take listed (beq_iff_eq.mp same)
  rw [(runTakes_local (rfl : buckets key = buckets key)).1, nothing]
  rfl

theorem highestReading_le (own : take.key = key) (rising : (readings key (before ++ [take])).Pairwise (· ≤ ·)) :
    highestReading key (before ++ [take]) = take.nowMs := by
  have joined : readings key (before ++ [take]) = readings key before ++ [take.nowMs] := by
    simp only [readings, ofKey, List.filter_append, List.filter_cons, own, beq_self_eq_true, if_true, List.filter_nil, List.map_append,
      List.map_cons, List.map_nil]
  rw [joined] at rising
  have below := (List.pairwise_append.mp rising).2.2
  rw [highestReading, joined]
  cases seen : readings key before with
  | nil => rfl
  | cons first rest =>
    rw [seen] at below
    simp only [List.cons_append, List.foldl_append, List.foldl_cons, List.foldl_nil]
    refine max_eq_right (foldl_max_le (below first List.mem_cons_self _ List.mem_cons_self) fun reading listed => ?_)
    exact below reading (List.mem_cons_of_mem _ listed) _ List.mem_cons_self

/-- A refused take names the least wait after which the next take of its key is allowed. -/
theorem refused_wait {others : List Take} {refused next : Take} {decision : RateLimitDecision} {waitMs : Nat}
    (valid : assertConfig config = .ok limits)
    (alike : ∀ take ∈ before, take.key = key → take.config = config) (own : refused.key = key) (same : refused.config = config)
    (rising : (readings key (before ++ [refused])).Pairwise (· ≤ ·))
    (answered : (refused.perform (runTakes noBuckets before).1).2 = .ok decision) (denied : decision.allowed = false)
    (apart : ∀ take ∈ others, take.key ≠ key) (ownNext : next.key = key) (sameNext : next.config = config)
    (later : next.nowMs = refused.nowMs + waitMs) :
    ∃ answer, (next.perform (runTakes noBuckets (before ++ refused :: others)).1).2 = .ok answer ∧
      (answer.allowed = true ↔ decision.retryAfterMs ≤ waitMs) := by
  obtain ⟨-, highest⟩ := refilled_highest valid alike own
  rw [highestReading_le own rising] at highest
  have performed := perform_ok (by rw [same]; exact valid) (runTakes noBuckets before).1
  have next' := perform_ok (by rw [sameNext]; exact valid) (runTakes noBuckets (before ++ refused :: others)).1
  rw [own] at performed
  generalize refill limits (((runTakes noBuckets before).1 key).getD ⟨limits.burst, refused.nowMs⟩) refused.nowMs = bucket
    at highest performed
  rw [performed] at answered
  cases answered
  have few : ¬ 1 ≤ bucket.tokens := by
    intro enough
    simp [spend, enough] at denied
  have unspent : (spend limits bucket).1 = bucket := by
    unfold spend
    rw [if_neg few]
  have left : (runTakes noBuckets (before ++ refused :: others)).1 key = some bucket := by
    rw [runTakes_append]
    simp only [runTakes]
    rw [runTakes_others apart, performed, unspent]
    exact Function.update_self ..
  rw [ownNext, left, Option.getD_some, later, ← highest] at next'
  exact ⟨_, by rw [next'], spend_wait few rfl⟩

/-- The tokens of a key stay within its burst and do not depend on other keys, its rate is bounded over any span, and a refused take
names the least wait. -/
theorem takes_bounded (key : String) (config : TokenBucketConfig) (limits : BucketLimits) (valid : assertConfig config = .ok limits)
    (takes : List Take) (alike : ∀ take ∈ takes, take.key = key → take.config = config) :
    (∀ bucket, (runTakes noBuckets takes).1 key = some bucket → 0 ≤ bucket.tokens ∧ bucket.tokens ≤ limits.burst) ∧
    (runTakes noBuckets takes).1 key = (runTakes noBuckets (ofKey key takes)).1 key ∧
    answersOf key noBuckets takes = (runTakes noBuckets (ofKey key takes)).2 ∧
    (∀ (before span : List Take) (first : Take), takes = before ++ first :: span → first.key = key →
      (granted key (runTakes noBuckets before).1 (first :: span) : Rat) ≤
        limits.burst + limits.rate * (highestReading key takes - highestReading key (before ++ [first]) : Int) / 1000) ∧
    ∀ (before others : List Take) (refused next : Take) (decision : RateLimitDecision) (waitMs : Nat),
      takes = before ++ refused :: others → refused.key = key → (readings key (before ++ [refused])).Pairwise (· ≤ ·) →
      (refused.perform (runTakes noBuckets before).1).2 = .ok decision → decision.allowed = false →
      (∀ take ∈ others, take.key ≠ key) → next.key = key → next.config = config → next.nowMs = refused.nowMs + waitMs →
      ∃ answer, (next.perform (runTakes noBuckets takes).1).2 = .ok answer ∧ (answer.allowed = true ↔ decision.retryAfterMs ≤ waitMs) := by
  obtain ⟨bucket, answers⟩ : (runTakes noBuckets takes).1 key = _ ∧ answersOf key noBuckets takes = _ :=
    runTakes_local (rfl : noBuckets key = noBuckets key)
  refine ⟨fun last held => ?_, bucket, answers, fun before span first split own => ?_,
    fun before others refused next decision waitMs split own rising answered denied apart ownNext sameNext later => ?_⟩
  · rcases runTakes_started valid alike (rfl : noBuckets key = none) with ⟨-, still⟩ | ⟨last', ends, within, -, -⟩
    · cases held.symm.trans still
    · cases held.symm.trans ends
      exact ⟨within.lower, within.upper⟩
  · subst split
    exact granted_bound valid alike own
  · subst split
    exact refused_wait valid (fun take listed => alike take (List.mem_append_left _ listed)) own
      (alike refused (List.mem_append_right _ List.mem_cons_self) own) rising answered denied apart ownNext sameNext later

end Buckets

section Closed

/-- Two tokens a second, one at a time. -/
def slowConfig : TokenBucketConfig := ⟨.finite 2, .finite 1⟩

/-- The second take of a key at one instant waits for half a second. -/
theorem takes_bounded_slow :
    ∃ answer, ((⟨"a", slowConfig, 500⟩ : Take).perform (runTakes noBuckets [⟨"a", slowConfig, 0⟩, ⟨"a", slowConfig, 0⟩]).1).2 =
        .ok answer ∧ answer.allowed = true := by
  have valid : assertConfig slowConfig = .ok ⟨2, 1, by norm_num, le_refl 1⟩ := rfl
  have bounded := (takes_bounded "a" slowConfig ⟨2, 1, by norm_num, le_refl 1⟩ valid [⟨"a", slowConfig, 0⟩, ⟨"a", slowConfig, 0⟩]
    (by simp)).2.2.2.2
  obtain ⟨decision, answered, denied, half⟩ : ∃ decision,
      ((⟨"a", slowConfig, 0⟩ : Take).perform (runTakes noBuckets [⟨"a", slowConfig, 0⟩]).1).2 = .ok decision ∧
        decision.allowed = false ∧ decision.retryAfterMs ≤ 500 :=
    ⟨_, congrArg Prod.snd (perform_ok valid _), by decide +kernel, by decide +kernel⟩
  obtain ⟨answer, allowed, waits⟩ := bounded [⟨"a", slowConfig, 0⟩] [] ⟨"a", slowConfig, 0⟩ ⟨"a", slowConfig, 500⟩ decision 500
    rfl rfl (by decide) answered denied (by simp) rfl rfl rfl
  exact ⟨answer, allowed, waits.mpr half⟩

end Closed

end DurableExecution.Quota

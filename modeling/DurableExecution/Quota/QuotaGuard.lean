import DurableExecution.Admission.CheckThenAct
import DurableExecution.Engine.Operations
import DurableExecution.Quota.TokenBucket

/-
This file models the guard that checks the quotas of a namespace before a request, one statement at a time, and bounds the
runs of a namespace whose requests are checked side by side.
-/

namespace DurableExecution.Quota

open Admission Engine Workflow

section Guard

structure NamespaceQuota where
  maxConcurrentRuns : Option Nat
  maxPendingTasks : Option Nat
  ratePerSecond : Option JsNumber
  burst : Option JsNumber

structure NamespaceUsage where
  openRuns : Nat
  pendingTasks : Nat

def usage (db : Database) (namespaceId : Nat) : NamespaceUsage where
  openRuns := db.runs.countP fun row => row.namespaceId == namespaceId && row.status == .running
  pendingTasks := db.tasks.countP fun task => task.namespaceId == namespaceId && (task.state == .pending || task.state == .leased)

def queueDepth (db : Database) (queueName : String) : Nat :=
  db.tasks.countP fun task => task.queueName == queueName && task.state == .pending

inductive RequestKind where
  | read
  | write
  | start
  deriving DecidableEq

inductive RejectionCode where
  | rateLimited
  | runQuotaExceeded
  | taskQuotaExceeded
  | overloaded
  deriving DecidableEq

structure Rejection where
  status : Nat
  code : RejectionCode
  message : String
  retryAfterSeconds : Int
  deriving DecidableEq

structure GuardOptions where
  queueName : Option String
  maxQueueDepth : Option Nat
  quotaRetryAfterSeconds : Option Int

/-- `options.quotaRetryAfterSeconds ?? DEFAULT_QUOTA_RETRY_AFTER_SECONDS`. -/
def GuardOptions.quotaRetryAfter (options : GuardOptions) : Int := options.quotaRetryAfterSeconds.getD 5

/-- How far the check of a request has come: what it waits for, or its answer. -/
inductive CheckPhase where
  | reading
  | counting (quota : NamespaceQuota)
  | measuring (quota : NamespaceQuota)
  | admitted
  | rejected (rejection : Rejection)
  | threw (error : JsValue)
  | answered

/-- `Math.max(1, Math.ceil(ratePerSecond))`. -/
def defaultBurst : JsNumber → JsNumber
  | .finite rate => .finite (max 1 ⌈rate⌉ : Int)
  | .negZero | .negInf => .finite 1
  | .posInf => .posInf
  | .nan => .nan

def rateLimited (decision : RateLimitDecision) : Rejection :=
  ⟨429, .rateLimited, "the namespace exceeded its request rate limit", max 1 ⌈(decision.retryAfterMs : Rat) / 1000⌉⟩

def overloaded (options : GuardOptions) : Rejection :=
  ⟨503, .overloaded, "the task queue is full, try again later", options.quotaRetryAfter⟩

def taskQuotaExceeded (options : GuardOptions) (pending limit : Nat) : Rejection :=
  ⟨429, .taskQuotaExceeded, "the namespace has " ++ toString pending ++ " pending tasks, the limit is " ++ toString limit,
    options.quotaRetryAfter⟩

def runQuotaExceeded (options : GuardOptions) (open' limit : Nat) : Rejection :=
  ⟨429, .runQuotaExceeded, "the namespace has " ++ toString open' ++ " open runs, the limit is " ++ toString limit,
    options.quotaRetryAfter⟩

/-- The check after the depth of the queue. -/
def afterDepth (quota : NamespaceQuota) : CheckPhase :=
  if quota.maxPendingTasks.isNone && quota.maxConcurrentRuns.isNone then .admitted else .measuring quota

/-- The check after the rate limit. -/
def afterLimiter (options : GuardOptions) (kind : RequestKind) (quota : NamespaceQuota) : CheckPhase :=
  if kind = .read then .admitted
  else if options.queueName.isSome && options.maxQueueDepth.isSome then .counting quota
  else afterDepth quota

/-- The check once the quota is read, with the reading of the limiter's clock. -/
def afterQuota (options : GuardOptions) (buckets : Buckets) (namespaceId : Nat) (kind : RequestKind) (quota : NamespaceQuota)
    (nowMs : Int) : Buckets × CheckPhase :=
  match quota.ratePerSecond with
  | none => (buckets, afterLimiter options kind quota)
  | some rate =>
    let taken := (⟨toString namespaceId, ⟨rate, quota.burst.getD (defaultBurst rate)⟩, nowMs⟩ : Take).perform buckets
    match taken.2 with
    | .error error => (taken.1, .threw error)
    | .ok decision => (taken.1, if decision.allowed then afterLimiter options kind quota else .rejected (rateLimited decision))

/-- The check once the depth of the queue is read. -/
def afterCount (options : GuardOptions) (quota : NamespaceQuota) (depth : Nat) : CheckPhase :=
  if options.maxQueueDepth.any fun limit => decide (limit ≤ depth) then .rejected (overloaded options) else afterDepth quota

/-- The check once the usage is read. -/
def afterUsage (options : GuardOptions) (kind : RequestKind) (quota : NamespaceQuota) (usage : NamespaceUsage) : CheckPhase :=
  if quota.maxPendingTasks.any fun limit => decide (limit ≤ usage.pendingTasks) then
    .rejected (taskQuotaExceeded options usage.pendingTasks (quota.maxPendingTasks.getD 0))
  else if kind = .start ∧ quota.maxConcurrentRuns.any (fun limit => decide (limit ≤ usage.openRuns)) then
    .rejected (runQuotaExceeded options usage.openRuns (quota.maxConcurrentRuns.getD 0))
  else .admitted

structure Request where
  namespaceId : Nat
  kind : RequestKind
  phase : CheckPhase

/-- The database, the quotas, the buckets of the limiter and the requests. -/
structure GuardWorld where
  db : Database
  quotas : Nat → NamespaceQuota
  buckets : Buckets
  requests : List Request

/-- What happens between two awaits: a request arrives, the next answer reaches a check, a request that may start a run does so or
goes away, something else writes to the database, and an operator sets a quota. -/
inductive GuardOp where
  | arrives (namespaceId : Nat) (kind : RequestKind)
  | advances (index : Nat) (nowMs : Int)
  | starts (index : Nat) (queueName : String) (input : StartRunInput) (now : Instant) (budget : Option Nat)
  | leaves (index : Nat)
  | engine (op : EngineOp) (now : Instant) (budget : Option Nat)
  | setQuota (namespaceId : Nat) (quota : NamespaceQuota)

/-- The next part of a check. -/
def GuardWorld.check (options : GuardOptions) (world : GuardWorld) (request : Request) (nowMs : Int) : Buckets × CheckPhase :=
  match request.phase with
  | .reading =>
    afterQuota options world.buckets request.namespaceId request.kind (world.quotas request.namespaceId) nowMs
  | .counting quota => (world.buckets, afterCount options quota (queueDepth world.db (options.queueName.getD "")))
  | .measuring quota => (world.buckets, afterUsage options request.kind quota (usage world.db request.namespaceId))
  | phase => (world.buckets, phase)

def Request.mayStart (request : Request) : Bool :=
  decide (request.kind = .start) && match request.phase with
    | .admitted => true
    | _ => false

def GuardOp.run (options : GuardOptions) (world : GuardWorld) : GuardOp → GuardWorld
  | .arrives namespaceId kind => { world with requests := world.requests ++ [⟨namespaceId, kind, .reading⟩] }
  | .advances index nowMs =>
    match world.requests[index]? with
    | none => world
    | some request =>
      let checked := world.check options request nowMs
      { world with buckets := checked.1, requests := world.requests.set index { request with phase := checked.2 } }
  | .starts index queueName input now budget =>
    match world.requests[index]? with
    | none => world
    | some request =>
      if request.mayStart then
        { world with
          db := (EngineOp.startRun request.namespaceId queueName input).run now budget world.db
          requests := world.requests.set index { request with phase := .answered } }
      else world
  | .leaves index =>
    match world.requests[index]? with
    | none => world
    | some request => { world with requests := world.requests.set index { request with phase := .answered } }
  | .engine op now budget => { world with db := op.run now budget world.db }
  | .setQuota namespaceId quota => { world with quotas := Function.update world.quotas namespaceId quota }

/-- The requests of a namespace that were let through and have not started their run yet. -/
def GuardWorld.starting (world : GuardWorld) (namespaceId : Nat) : Nat :=
  world.requests.countP fun request => request.namespaceId == namespaceId && request.mayStart

/-- The other writers keep to what they may do, and the quota of the namespace stays. -/
def GuardOp.Allowed (namespaceId : Nat) (world : GuardWorld) : GuardOp → Prop
  | .engine op _ _ => op.inTime world.db
  | .setQuota other _ => other ≠ namespaceId
  | _ => True

/-- The runs of a namespace that were opened besides its checked requests: children, continued and scheduled runs. -/
def GuardOp.openedBesides (namespaceId : Nat) (before after : GuardWorld) : GuardOp → Nat
  | .engine .. => (usage after.db namespaceId).openRuns - (usage before.db namespaceId).openRuns
  | _ => 0

/-- A run in which at most so many requests of a namespace are between their check and the start of their run, with the number of
runs that others opened. -/
inductive GuardRun (options : GuardOptions) (namespaceId inFlight : Nat) (start : GuardWorld) : GuardWorld → Nat → Prop where
  | refl : GuardRun options namespaceId inFlight start start 0
  | step {world : GuardWorld} {besides : Nat} (run : GuardRun options namespaceId inFlight start world besides) (op : GuardOp)
      (allowed : op.Allowed namespaceId world) (few : (op.run options world).starting namespaceId ≤ inFlight) :
      GuardRun options namespaceId inFlight start (op.run options world)
        (besides + op.openedBesides namespaceId world (op.run options world))

end Guard

section Opening

variable {namespaceId other : Nat} {queueName : String} {input : StartRunInput} {now : Instant} {budget : Option Nat}
  {db : Database}

theorem EngineOp.run_coherent (op : EngineOp) (coherent : db.Coherent none) (inTime : op.inTime db) :
    (op.run now budget db).Coherent none := by
  rcases op.run_cases budget coherent inTime with same | step
  · rw [same]
    exact coherent
  · exact step.coherent coherent

/-- Starting a run opens at most one, in its own namespace. -/
theorem startRun_openRuns (coherent : db.Coherent none) :
    (usage ((EngineOp.startRun other queueName input).run now budget db) namespaceId).openRuns ≤
      (usage db namespaceId).openRuns + if other = namespaceId then 1 else 0 := by
  rcases (EngineOp.startRun other queueName input).run_cases budget coherent trivial with same | step
  · rw [same]
    omega
  · generalize (EngineOp.startRun other queueName input).run now budget db = db' at step
    cases step with
    | started free opens =>
      obtain ⟨row', timeouts, columns, timed⟩ := opens
      have own : row'.namespaceId = other := congrArg RunRow.namespaceId columns
      simp only [usage, Database.opened, List.countP_append, List.countP_singleton, own, Bool.and_eq_true, beq_iff_eq]
      split <;> split <;> simp_all
    | woken found running wakes => cases wakes
    | closed found running closing closes => cases closing

end Opening

section Checking

variable {options : GuardOptions} {namespaceId limit : Nat} {quota : NamespaceQuota} {phase : CheckPhase}

/-- The quota that a check has read and goes on with. -/
def CheckPhase.quota? : CheckPhase → Option NamespaceQuota
  | .counting quota | .measuring quota => some quota
  | _ => none

/-- A check that has not let its request through, and that goes on with a quota of so many runs. -/
structure CheckPhase.Waits (limit : Nat) (phase : CheckPhase) : Prop where
  shut : phase ≠ .admitted
  carries : ∀ quota, phase.quota? = some quota → quota.maxConcurrentRuns = some limit

theorem rejected_waits (rejection : Rejection) : (CheckPhase.rejected rejection).Waits limit := ⟨by simp, by simp [CheckPhase.quota?]⟩

theorem afterDepth_waits (limited : quota.maxConcurrentRuns = some limit) : (afterDepth quota).Waits limit := by
  have measures : afterDepth quota = .measuring quota := if_neg (by simp [limited])
  rw [measures]
  exact ⟨by simp, by simp [CheckPhase.quota?, limited]⟩

theorem afterLimiter_waits (limited : quota.maxConcurrentRuns = some limit) : (afterLimiter options .start quota).Waits limit := by
  rw [afterLimiter, if_neg (by simp)]
  split
  · exact ⟨by simp, by simp [CheckPhase.quota?, limited]⟩
  · exact afterDepth_waits limited

theorem afterQuota_waits (buckets : Buckets) (nowMs : Int) (limited : quota.maxConcurrentRuns = some limit) :
    (afterQuota options buckets namespaceId .start quota nowMs).2.Waits limit := by
  rw [afterQuota]
  split
  · exact afterLimiter_waits limited
  · dsimp only
    split
    · exact ⟨by simp, by simp [CheckPhase.quota?]⟩
    · split
      · exact afterLimiter_waits limited
      · exact rejected_waits _

theorem afterCount_waits (depth : Nat) (limited : quota.maxConcurrentRuns = some limit) : (afterCount options quota depth).Waits limit := by
  rw [afterCount]
  split
  · exact rejected_waits _
  · exact afterDepth_waits limited

/-- A start is let through below the limit only. -/
theorem afterUsage_room {usage : NamespaceUsage} (limited : quota.maxConcurrentRuns = some limit) :
    (afterUsage options .start quota usage).Waits limit ∨ usage.openRuns < limit ∧ afterUsage options .start quota usage = .admitted := by
  rw [afterUsage]
  split
  · exact .inl (rejected_waits _)
  · split
    · exact .inl (rejected_waits _)
    · next room => exact .inr ⟨by simpa [limited] using room, rfl⟩

/-- The quota of a namespace is this one, and so every check of a start in it goes on with it. -/
structure GuardWorld.Watched (namespaceId limit : Nat) (world : GuardWorld) : Prop where
  coherent : world.db.Coherent none
  limited : (world.quotas namespaceId).maxConcurrentRuns = some limit
  carries : ∀ request ∈ world.requests, request.namespaceId = namespaceId → request.kind = .start →
    ∀ quota, request.phase.quota? = some quota → quota.maxConcurrentRuns = some limit

/-- A part of the check of a start leaves it as it is, makes it wait, or lets it through below the limit. -/
theorem check_start {world : GuardWorld} {request : Request} (nowMs : Int) (watched : world.Watched namespaceId limit)
    (listed : request ∈ world.requests) (own : request.namespaceId = namespaceId) (start : request.kind = .start) :
    (world.check options request nowMs).2 = request.phase ∨ (world.check options request nowMs).2.Waits limit ∨
      (usage world.db namespaceId).openRuns < limit ∧ (world.check options request nowMs).2 = .admitted := by
  have carries := watched.carries request listed own start
  rw [GuardWorld.check, start, own]
  split
  · exact .inr (.inl (afterQuota_waits _ nowMs watched.limited))
  · next quota phase => exact .inr (.inl (afterCount_waits _ (carries quota (by rw [phase]; rfl))))
  · next quota phase => exact .inr (afterUsage_room (carries quota (by rw [phase]; rfl)))
  · exact .inl rfl

end Checking

section Loads

variable {options : GuardOptions} {namespaceId limit inFlight besides : Nat} {world start : GuardWorld}

theorem Request.mayStart_iff (request : Request) : request.mayStart = true ↔ request.kind = .start ∧ request.phase = .admitted := by
  rw [Request.mayStart, Bool.and_eq_true, decide_eq_true_iff]
  cases request.phase <;> simp

def GuardWorld.load (world : GuardWorld) (namespaceId besides : Nat) : Load :=
  ⟨(usage world.db namespaceId).openRuns, world.starting namespaceId, besides⟩

/-- One request less that may start a run if this one may, and one more if it may in its next phase. -/
theorem starting_set {request : Request} {index : Nat} (phase : CheckPhase) (found : world.requests[index]? = some request)
    (own : request.namespaceId = namespaceId) :
    ((world.requests.set index { request with phase := phase }).countP fun request =>
        request.namespaceId == namespaceId && request.mayStart) =
      world.starting namespaceId - (if request.mayStart then 1 else 0) +
        if ({ request with phase := phase } : Request).mayStart then 1 else 0 := by
  obtain ⟨below, rfl⟩ := List.getElem?_eq_some_iff.mp found
  rw [List.countP_set below]
  simp [own, GuardWorld.starting]

theorem starting_set_other {request : Request} {index : Nat} (phase : CheckPhase) (found : world.requests[index]? = some request)
    (other : request.namespaceId ≠ namespaceId) :
    ((world.requests.set index { request with phase := phase }).countP fun request =>
        request.namespaceId == namespaceId && request.mayStart) = world.starting namespaceId := by
  obtain ⟨below, rfl⟩ := List.getElem?_eq_some_iff.mp found
  rw [List.countP_set below]
  simp [other, GuardWorld.starting]

theorem starting_pos {request : Request} {index : Nat} (found : world.requests[index]? = some request)
    (own : request.namespaceId = namespaceId) (may : request.mayStart = true) : 0 < world.starting namespaceId :=
  List.countP_pos_iff.mpr ⟨request, List.mem_of_getElem? found, by simp [own, may]⟩

/-- A part of a check leaves the starting requests as they are, or adds one below the limit. -/
theorem advances_moves {index : Nat} {nowMs : Int} (watched : world.Watched namespaceId limit) :
    (world.load namespaceId besides).Moves limit ((GuardOp.run options world (.advances index nowMs)).load namespaceId besides) := by
  rw [GuardOp.run]
  cases found : world.requests[index]? with
  | none => exact .stays
  | some request =>
    have listed := List.mem_of_getElem? found
    by_cases own : request.namespaceId = namespaceId
    · have counted := starting_set (world.check options request nowMs).2 found own
      simp only [GuardWorld.load, GuardWorld.starting] at counted ⊢
      rw [counted]
      by_cases before : request.mayStart = true
      · have kept : (world.check options request nowMs).2 = request.phase := by
          rw [GuardWorld.check, ((request.mayStart_iff).mp before).2]
        have one := starting_pos found own before
        rw [GuardWorld.starting] at one
        rw [kept, if_pos before, Nat.sub_add_cancel one]
        exact .stays
      · rw [if_neg before, Nat.sub_zero]
        split
        · next after =>
            obtain ⟨start, admitted⟩ := (Request.mayStart_iff _).mp after
            have room : (usage world.db namespaceId).openRuns < limit := by
              rcases check_start nowMs watched listed own start with same | waits | ⟨room, -⟩
              · exact absurd ((request.mayStart_iff).mpr ⟨start, same.symm.trans admitted⟩) before
              · exact absurd admitted waits.shut
              · exact room
            exact .passes room
        · exact .stays
    · have counted := starting_set_other (world.check options request nowMs).2 found own
      simp only [GuardWorld.load, GuardWorld.starting] at counted ⊢
      rw [counted]
      exact .stays

/-- What happens to the requests and the database of a namespace, seen as a load with a limit. -/
theorem GuardOp.moves (op : GuardOp) (watched : world.Watched namespaceId limit) : (world.load namespaceId besides).Moves limit
      ((op.run options world).load namespaceId (besides + op.openedBesides namespaceId world (op.run options world))) := by
  cases op with
  | arrives other kind =>
    have same : (GuardOp.run options world (.arrives other kind)).load namespaceId besides = world.load namespaceId besides := by
      simp [GuardOp.run, GuardWorld.load, GuardWorld.starting, List.countP_append, Request.mayStart]
    simp only [GuardOp.openedBesides, Nat.add_zero, same]
    exact .stays
  | advances index nowMs => exact advances_moves watched
  | starts index queueName input now budget =>
    rw [GuardOp.run]
    cases found : world.requests[index]? with
    | none => exact .stays
    | some request =>
      by_cases may : request.mayStart = true
      · have opened := @startRun_openRuns namespaceId request.namespaceId queueName input now budget _ watched.coherent
        simp only [may, if_true, GuardWorld.load, GuardWorld.starting, GuardOp.openedBesides, Nat.add_zero]
        by_cases own : request.namespaceId = namespaceId
        · have counted := starting_set .answered found own
          have done : ({ request with phase := .answered } : Request).mayStart = false := by simp [Request.mayStart]
          rw [counted, if_pos may, done]
          rw [if_pos own] at opened
          exact .acts (starting_pos found own may) opened
        · have counted := starting_set_other .answered found own
          rw [counted]
          rw [if_neg own] at opened
          exact .changes _ 0 opened
      · dsimp only
        rw [if_neg may]
        exact .stays
  | leaves index =>
    rw [GuardOp.run]
    cases found : world.requests[index]? with
    | none => exact .stays
    | some request =>
      simp only [GuardWorld.load, GuardWorld.starting, GuardOp.openedBesides, Nat.add_zero]
      by_cases own : request.namespaceId = namespaceId
      · have done : ({ request with phase := .answered } : Request).mayStart = false := by simp [Request.mayStart]
        rw [starting_set .answered found own, done]
        by_cases may : request.mayStart = true
        · rw [if_pos may]
          exact .drops
        · rw [if_neg may]
          exact .stays
      · rw [starting_set_other .answered found own]
        exact .stays
  | engine op now budget => exact .changes _ _ (by dsimp only [GuardWorld.load, GuardOp.openedBesides]; omega)
  | setQuota other quota => exact .stays

/-- An operation keeps the quota, and a check of a start goes on with it. -/
theorem GuardOp.watched (op : GuardOp) (watched : world.Watched namespaceId limit) (allowed : op.Allowed namespaceId world) :
    (op.run options world).Watched namespaceId limit := by
  obtain ⟨coherent, limited, carries⟩ := watched
  have set : ∀ {index request phase}, world.requests[index]? = some request →
      (request.namespaceId = namespaceId → request.kind = .start → ∀ quota, phase.quota? = some quota →
        quota.maxConcurrentRuns = some limit) →
      ∀ other ∈ world.requests.set index { request with phase := phase }, other.namespaceId = namespaceId → other.kind = .start →
        ∀ quota, other.phase.quota? = some quota → quota.maxConcurrentRuns = some limit := by
    intro index request phase found next other listed
    rcases List.mem_or_eq_of_mem_set listed with old | rfl
    · exact carries other old
    · exact next
  cases op with
  | arrives other kind =>
    refine ⟨coherent, limited, fun request listed => ?_⟩
    rcases List.mem_append.mp listed with old | new
    · exact carries request old
    · rw [List.mem_singleton.mp new]
      simp [CheckPhase.quota?]
  | advances index nowMs =>
    rw [GuardOp.run]
    cases found : world.requests[index]? with
    | none => exact ⟨coherent, limited, carries⟩
    | some request =>
      refine ⟨coherent, limited, set found fun own start quota next => ?_⟩
      have listed := List.mem_of_getElem? found
      rcases check_start nowMs ⟨coherent, limited, carries⟩ listed own start with same | waits | ⟨-, admitted⟩
      · exact carries request listed own start quota (same ▸ next)
      · exact waits.carries quota next
      · rw [admitted] at next
        cases next
  | starts index queueName input now budget =>
    rw [GuardOp.run]
    cases found : world.requests[index]? with
    | none => exact ⟨coherent, limited, carries⟩
    | some request =>
      dsimp only
      split
      · exact ⟨EngineOp.run_coherent _ coherent trivial, limited, set found fun _ _ _ next => by cases next⟩
      · exact ⟨coherent, limited, carries⟩
  | leaves index =>
    rw [GuardOp.run]
    cases found : world.requests[index]? with
    | none => exact ⟨coherent, limited, carries⟩
    | some request => exact ⟨coherent, limited, set found fun _ _ _ next => by cases next⟩
  | engine op now budget => exact ⟨EngineOp.run_coherent op coherent allowed, limited, carries⟩
  | setQuota other quota => exact ⟨coherent, by simpa [GuardOp.run, Function.update_of_ne (Ne.symm allowed)] using limited, carries⟩

theorem GuardRun.watched (run : GuardRun options namespaceId inFlight start world besides)
    (watched : start.Watched namespaceId limit) : world.Watched namespaceId limit := by
  induction run with
  | refl => exact watched
  | step run op allowed few ih => exact op.watched ih allowed

/-- The runs of a namespace are counted in a load with a limit. -/
theorem GuardRun.loadRun (run : GuardRun options namespaceId inFlight start world besides) (watched : start.Watched namespaceId limit) :
    LoadRun limit inFlight (start.load namespaceId 0) (world.load namespaceId besides) := by
  induction run with
  | refl => exact .refl
  | step run op allowed few ih => exact .step ih (op.moves (run.watched watched)) few

/-- However the checks and the starts of the requests interleave, a namespace has at most as many open runs as its quota allows,
the requests in flight but one, and the runs that were opened without a check; or as many as it had. -/
theorem quota_overshoot (reached : EngineRun EngineOp.inTime start.db) (idle : start.requests = [])
    (limited : (start.quotas namespaceId).maxConcurrentRuns = some limit)
    (run : GuardRun options namespaceId inFlight start world besides) : (usage world.db namespaceId).openRuns ≤
      max (usage start.db namespaceId).openRuns (limit + inFlight - 1) + besides := by
  have watched : start.Watched namespaceId limit := ⟨engineRun_coherent reached, limited, by simp [idle]⟩
  exact (run.loadRun watched).overshoot (by simp [GuardWorld.load, GuardWorld.starting, idle]) rfl

end Loads

/-- A namespace that may have one open run, and requests that nothing else limits. -/
def oneRun : GuardWorld := ⟨emptyDatabase, fun _ => ⟨some 1, none, none, none⟩, noBuckets, []⟩

def unguarded : GuardOptions := ⟨none, none, none⟩

/-- Two requests are both checked before either starts its run. -/
def twoChecked : GuardWorld :=
  [.arrives 1 .start, .arrives 1 .start, .advances 0 0, .advances 1 0, .advances 0 0, .advances 1 0].foldl
    (GuardOp.run unguarded) oneRun

def shipping (index : Nat) : GuardOp := .starts index "orders" ⟨"ship", .null, none, none, none⟩ .epoch none

def twoStarted : GuardWorld := (shipping 1).run unguarded ((shipping 0).run unguarded twoChecked)

theorem quota_overshoot_two : (usage twoStarted.db 1).openRuns = 2 ∧ (usage twoStarted.db 1).openRuns ≤ 2 := by
  have arrived : GuardRun unguarded 1 2 oneRun _ 0 :=
    .step (.step .refl (.arrives 1 .start) trivial (by decide)) (.arrives 1 .start) trivial (by decide)
  have measuring : GuardRun unguarded 1 2 oneRun _ 0 :=
    .step (.step arrived (.advances 0 0) trivial (by decide)) (.advances 1 0) trivial (by decide)
  have checked : GuardRun unguarded 1 2 oneRun twoChecked 0 :=
    .step (.step measuring (.advances 0 0) trivial (by decide)) (.advances 1 0) trivial (by decide)
  have run : GuardRun unguarded 1 2 oneRun twoStarted 0 :=
    .step (.step checked (shipping 0) trivial (by decide)) (shipping 1) trivial (by decide)
  exact ⟨by decide +kernel, quota_overshoot .empty rfl rfl run⟩

end DurableExecution.Quota

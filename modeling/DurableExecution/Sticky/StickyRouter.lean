import DurableExecution.Engine.TaskQueue
import DurableExecution.Leases.ExpiringClaims
import DurableExecution.Sticky.RunCache

/-
This file models the claims that workers have on the runs in their caches, and shows that a live claim keeps the run's
workflow tasks from every other worker.
-/

namespace DurableExecution.Sticky

open DurableExecution.Leases Engine Workflow

section Router

structure StickyClaim where
  runId : RunId
  workerId : String
  expiresAt : Int
  deriving DecidableEq

/-- The table `run_stickiness`, keyed by the run. -/
abbrev RunStickiness := Claims RunId String Int

def toClaim (runId : RunId) (row : Claim String Int) : StickyClaim := ⟨runId, row.owner, row.expiresAt⟩

/-- The rows that `dequeue` reads. -/
def RunStickiness.rows (table : RunStickiness) : List StickinessRow :=
  table.entries.map fun entry => ⟨entry.1, entry.2.owner, entry.2.expiresAt⟩

def stickyTimeoutError (stickyTimeoutMs : JsNumber) : JsValue :=
  plainError "RangeError" ("stickyTimeoutMs must be a positive integer, got " ++ stickyTimeoutMs.text)

/-- The row after the upsert. -/
def upserted (now : Instant) (workerId : String) (timeout : Nat) : Option (Claim String Int) → Claim String Int
  | none => ⟨workerId, now.ms + timeout⟩
  | some row => if row.owner = workerId ∨ row.expiresAt ≤ now.ms then ⟨workerId, now.ms + timeout⟩ else row

def claim (table : RunStickiness) (now : Instant) (runId : RunId) (workerId : String) (stickyTimeoutMs : JsNumber) :
    RunStickiness × Except JsValue StickyClaim :=
  match positiveInteger stickyTimeoutMs with
  | none => (table, .error (stickyTimeoutError stickyTimeoutMs))
  | some timeout =>
    let row := upserted now workerId timeout (table.get runId)
    (table.set runId row, .ok (toClaim runId row))

def find (table : RunStickiness) (now : Instant) (runId : RunId) : Option StickyClaim :=
  ((table.get runId).filter fun row => decide (now.ms < row.expiresAt)).map (toClaim runId)

def release (table : RunStickiness) (runId : RunId) (workerId : String) : RunStickiness × Bool :=
  if (table.get runId).any fun row => decide (row.owner = workerId) then (table.erase runId, true) else (table, false)

def releaseWorker (table : RunStickiness) (workerId : String) : RunStickiness × Nat :=
  (table.filter fun entry => decide (entry.2.owner ≠ workerId),
    table.entries.countP fun entry => decide (entry.2.owner = workerId))

/-- The calls of all workers, each one statement. -/
inductive RouterOp where
  | claim (runId : RunId) (workerId : String) (stickyTimeoutMs : JsNumber)
  | find (runId : RunId)
  | release (runId : RunId) (workerId : String)
  | releaseWorker (workerId : String)

def RouterOp.run (table : RunStickiness) (now : Instant) : RouterOp → RunStickiness
  | .claim runId workerId stickyTimeoutMs => (Sticky.claim table now runId workerId stickyTimeoutMs).1
  | .find _ => table
  | .release runId workerId => (Sticky.release table runId workerId).1
  | .releaseWorker workerId => (Sticky.releaseWorker table workerId).1

/-- Calls one after the other, each with the reading of its worker's clock. -/
def runRouter (table : RunStickiness) : List (Instant × RouterOp) → RunStickiness
  | [] => table
  | (now, op) :: rest => runRouter (op.run table now) rest

/-- The worker itself claims the run or gives it up. -/
def RouterOp.IsOf (runId : RunId) (workerId : String) : RouterOp → Prop
  | .claim other asker _ => other = runId ∧ asker = workerId
  | .find _ => False
  | .release other asker => other = runId ∧ asker = workerId
  | .releaseWorker asker => asker = workerId

/-- The last call of a worker for a run was a claim that was answered with its own name, and has not expired. -/
def HoldsRun (ops : List (Instant × RouterOp)) (runId : RunId) (workerId : String) (expiresAt : Int) (now : Instant) : Prop :=
  ∃ before after asked stickyTimeoutMs, ops = before ++ (asked, .claim runId workerId stickyTimeoutMs) :: after ∧
    (claim (runRouter .empty before) asked runId workerId stickyTimeoutMs).2 = .ok ⟨runId, workerId, expiresAt⟩ ∧
    (∀ later ∈ after, ¬ later.2.IsOf runId workerId) ∧ now.ms < expiresAt

end Router

section Claims

variable {table : RunStickiness} {now : Instant} {runId : RunId} {workerId other : String} {stickyTimeoutMs : JsNumber}
  {expiresAt : Int} {ops before after : List (Instant × RouterOp)}

/-- A call as an operation on claims; a claim that is refused changes nothing. -/
def RouterOp.toClaimOp (now : Instant) : RouterOp → ClaimOp RunId String Int
  | .claim runId workerId stickyTimeoutMs =>
    match positiveInteger stickyTimeoutMs with
    | none => .read runId
    | some timeout => .claim runId workerId (now.ms + timeout)
  | .find runId => .read runId
  | .release runId workerId => .release runId workerId
  | .releaseWorker workerId => .releaseOwner workerId

theorem upserted_claimed (table : RunStickiness) (now : Instant) (runId : RunId) (workerId : String) (timeout : Nat) :
    upserted now workerId timeout (table.get runId) = table.claimed now.ms runId workerId (now.ms + timeout) := by
  unfold upserted Claims.claimed
  cases table.get runId <;> rfl

theorem RouterOp.run_claims (op : RouterOp) (table : RunStickiness) (now : Instant) :
    op.run table now = (op.toClaimOp now).run table now.ms := by
  cases op with
  | claim runId workerId stickyTimeoutMs =>
    rw [RouterOp.run, RouterOp.toClaimOp, Sticky.claim]
    cases positiveInteger stickyTimeoutMs with
    | none => rfl
    | some timeout => simp only [upserted_claimed, ClaimOp.run]
  | release runId workerId =>
    rw [RouterOp.run, RouterOp.toClaimOp, Sticky.release, ClaimOp.run, Claims.isOwnedBy]
    split <;> rfl
  | find runId => rfl
  | releaseWorker workerId => rfl

def claimOps (ops : List (Instant × RouterOp)) : List (Int × ClaimOp RunId String Int) :=
  ops.map fun op => (op.1.ms, op.2.toClaimOp op.1)

theorem runRouter_claims (table : RunStickiness) (ops : List (Instant × RouterOp)) :
    runRouter table ops = runClaims table (claimOps ops) := by
  induction ops generalizing table with
  | nil => rfl
  | cons op rest ih =>
    rw [runRouter, ih, RouterOp.run_claims]
    rfl

theorem toClaimOp_concerns {op : RouterOp} (concerns : (op.toClaimOp now).Concerns runId workerId) : op.IsOf runId workerId := by
  cases op with
  | claim other asker stickyTimeoutMs =>
    rw [RouterOp.toClaimOp] at concerns
    cases accepted : positiveInteger stickyTimeoutMs with
    | none =>
      rw [accepted] at concerns
      exact concerns.elim
    | some timeout =>
      rw [accepted] at concerns
      exact concerns
  | find other => exact concerns.elim
  | release other asker => exact concerns
  | releaseWorker asker => exact concerns

theorem claim_own (answered : (claim table now runId workerId stickyTimeoutMs).2 = .ok ⟨runId, workerId, expiresAt⟩) :
    ∃ timeout, positiveInteger stickyTimeoutMs = some timeout ∧ expiresAt = now.ms + timeout ∧
      (table.claimed now.ms runId workerId expiresAt).owner = workerId := by
  rw [claim] at answered
  cases accepted : positiveInteger stickyTimeoutMs with
  | none =>
    rw [accepted] at answered
    cases answered
  | some timeout =>
    simp only [accepted, upserted_claimed, toClaim, Except.ok.injEq, StickyClaim.mk.injEq, true_and] at answered
    have whole := claimed_own answered.1
    have until' : expiresAt = now.ms + timeout := by rw [← answered.2, whole]
    exact ⟨timeout, rfl, until', until' ▸ answered.1⟩

/-- The workers know of their claims what the library's owners know. -/
theorem HoldsRun.holds (holds : HoldsRun ops runId workerId expiresAt now) : Holds (claimOps ops) runId workerId expiresAt now.ms := by
  obtain ⟨before, after, asked, stickyTimeoutMs, rfl, answered, quiet, live⟩ := holds
  obtain ⟨timeout, accepted, until', own⟩ := claim_own answered
  refine ⟨claimOps before, claimOps after, asked.ms, ?_, ?_, fun later listed concerns => ?_, live⟩
  · simp [claimOps, RouterOp.toClaimOp, accepted, until']
  · rw [← runRouter_claims]
    exact own
  · obtain ⟨op, here, rfl⟩ := List.mem_map.mp listed
    exact quiet op here (toClaimOp_concerns concerns)

theorem HoldsRun.get (holds : HoldsRun ops runId workerId expiresAt now) (read : ∀ op ∈ ops, op.1.ms ≤ now.ms) :
    (runRouter .empty ops).get runId = some ⟨workerId, expiresAt⟩ := by
  rw [runRouter_claims]
  refine holds.holds.get fun op listed => ?_
  obtain ⟨call, here, rfl⟩ := List.mem_map.mp listed
  exact read call here

end Claims

section Dequeue

variable {now : Instant} {db : Database} {poisonThreshold : PoisonThreshold} {options : DequeueOptions}

/-- A task that is handed out is a due row. -/
theorem dequeue_due {leased : LeasedTask} (listed : leased ∈ (db.dequeue now poisonThreshold options).1) :
    ∃ task ∈ db.tasks, task.isDue now options = true ∧ leased.runId = task.runId ∧ leased.payload = task.payload := by
  obtain ⟨task, next, handed⟩ := List.mem_filterMap.mp listed
  have due := List.mem_filter.mp ((List.perm_insertionSort _ _).subset (List.mem_of_mem_take next))
  refine ⟨task, due.1, due.2, ?_⟩
  obtain ⟨token, -, rfl⟩ := Option.map_eq_some_iff.mp handed
  unfold TaskRow.taken
  dsimp only
  split
  · exact ⟨rfl, rfl⟩
  · split <;> exact ⟨rfl, rfl⟩

end Dequeue

/-- While a worker holds a run, every lookup answers with its claim, every other worker's claim is answered with it and leaves
it alone, nobody else can release it or holds the run too, and no other worker that asks for its own tasks is handed a workflow
task of the run. Once the claim has expired, whoever asks first gets the run. -/
theorem stickyClaims_exclusive {ops : List (Instant × RouterOp)} {now : Instant} {runId : RunId} {workerId : String}
    {expiresAt : Int} (read : ∀ op ∈ ops, op.1.ms ≤ now.ms) (holds : HoldsRun ops runId workerId expiresAt now) :
    find (runRouter .empty ops) now runId = some ⟨runId, workerId, expiresAt⟩ ∧
    (∀ other until', HoldsRun ops runId other until' now → other = workerId) ∧ (∀ other stickyTimeoutMs answer, other ≠ workerId →
      (claim (runRouter .empty ops) now runId other stickyTimeoutMs).2 = .ok answer → answer = ⟨runId, workerId, expiresAt⟩ ∧
        (claim (runRouter .empty ops) now runId other stickyTimeoutMs).1.get runId = some ⟨workerId, expiresAt⟩) ∧
    (∀ other, other ≠ workerId → release (runRouter .empty ops) runId other = (runRouter .empty ops, false)) ∧
    (∀ other poisonThreshold (db : Database) (options : DequeueOptions), other ≠ workerId → options.stickyFor = some other →
      options.stickiness = (runRouter .empty ops).rows → ∀ task ∈ (db.dequeue now poisonThreshold options).1,
        task.payload.isWorkflowTask = true → task.runId ≠ runId) ∧
    ∀ later other stickyTimeoutMs timeout, expiresAt ≤ later.ms → positiveInteger stickyTimeoutMs = some timeout →
      (claim (runRouter .empty ops) later runId other stickyTimeoutMs).2 = .ok ⟨runId, other, later.ms + timeout⟩ := by
  have row := holds.get read
  have live : now.ms < expiresAt := by
    obtain ⟨-, -, -, -, -, -, -, live⟩ := holds
    exact live
  refine ⟨?_, fun other until' others => ?_, fun other stickyTimeoutMs answer apart answered => ?_, fun other apart => ?_,
    fun other poisonThreshold db options apart asker rows task listed workflow same => ?_,
    fun later other stickyTimeoutMs timeout expired accepted => ?_⟩
  · simp [find, row, live, toClaim]
  · have same := (others.get read).symm.trans row
    simpa using congrArg (Option.map Claim.owner) same
  · rw [claim] at answered ⊢
    cases accepted : positiveInteger stickyTimeoutMs with
    | none =>
      rw [accepted] at answered
      cases answered
    | some timeout =>
      have stays : upserted now other timeout (some ⟨workerId, expiresAt⟩) = ⟨workerId, expiresAt⟩ :=
        if_neg (by simp [apart.symm, live])
      simp only [accepted, row, stays] at answered ⊢
      exact ⟨(Except.ok.inj answered).symm, by rw [Order.InsertionMap.get_set, if_pos rfl]⟩
  · rw [release, row]
    exact if_neg (by simp [apart.symm])
  · obtain ⟨due, -, isDue, runs, payload⟩ := dequeue_due listed
    have stuck : due.isStuck now options = true := by
      rw [TaskRow.isStuck, asker]
      simp only [Bool.and_eq_true, List.any_eq_true, rows, RunStickiness.rows, List.mem_map]
      refine ⟨payload ▸ workflow, _, ⟨_, Order.InsertionMap.get_eq_some.mp row, rfl⟩, ?_⟩
      simp [← runs, same, apart.symm, live]
    simp [TaskRow.isDue, stuck] at isDue
  · rw [claim, accepted, row]
    have taken : upserted later other timeout (some ⟨workerId, expiresAt⟩) = ⟨other, later.ms + timeout⟩ :=
      if_pos (.inr expired)
    simp only [taken, toClaim]

/-- A worker claims a run for two seconds at the epoch, and another one asks a second later. -/
def twoClaims : List (Instant × RouterOp) :=
  [(.epoch, .claim 7 "alpha" (.finite 2000)), (⟨1000, oneSecond_lower, oneSecond_upper⟩, .claim 7 "beta" (.finite 5000))]

theorem stickyClaims_exclusive_two :
    find (runRouter .empty twoClaims) ⟨1000, oneSecond_lower, oneSecond_upper⟩ 7 = some ⟨7, "alpha", 2000⟩ ∧
      (claim (runRouter .empty twoClaims) ⟨2000, twoSeconds_lower, twoSeconds_upper⟩ 7 "beta" (.finite 5000)).2 =
        .ok ⟨7, "beta", 7000⟩ := by
  have exclusive := @stickyClaims_exclusive twoClaims ⟨1000, oneSecond_lower, oneSecond_upper⟩ 7 "alpha" 2000 (by decide)
    ⟨[], _, .epoch, .finite 2000, rfl, rfl, by simp [RouterOp.IsOf], by decide⟩
  exact ⟨exclusive.1, exclusive.2.2.2.2.2 _ "beta" (.finite 5000) 5000 (by decide) (by decide +kernel)⟩

end DurableExecution.Sticky

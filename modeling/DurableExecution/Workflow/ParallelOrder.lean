import DurableExecution.Workflow.ParallelHelpers
import DurableExecution.Workflow.ReplayTrace

/-
This file shows that the parallel helpers follow the history: which tasks they have started, in
which order, and with which outcome they end.
-/

namespace DurableExecution.Workflow

open EventLoop

section Starts

variable {H : Type} {replay : Replay} {first world final : ReplayWorld H} {target result : PromiseId}
  {state : ParallelState H} {tasks : Nat → WorkflowCode H} {taskCount : Nat} {limits : ParallelMode × Nat}
  {branches started : List PromiseId} {awaited : List (Nat × PromiseId)}

/-- The history delivered so far has ended the wait. -/
def delivered (world : ReplayWorld H) (target : PromiseId) : Bool :=
  match (world.tagOf target).bind WaitTag.completionPosition with
  | some place => decide ((place : Int) ≤ world.host.fedUpTo)
  | none => false

/-- The task of the index is unfinished in the history delivered so far. -/
def unfinished (world : ReplayWorld H) (started : List PromiseId) (index : Nat) : Bool :=
  match started[index]? with
  | some target => !delivered world target
  | none => true

/-- A task is started exactly when fewer earlier ones are unfinished than the limit allows. -/
def StartsExactly (world : ReplayWorld H) (started : List PromiseId) (taskCount limit : Nat) : Prop :=
  ∀ index < taskCount, index < started.length ↔ (List.range index).countP (unfinished world started) < limit

theorem Loop.startsExactly (loop : Loop replay tasks taskCount limits first world result started awaited state)
    (filled : Filled taskCount awaited state) (running : ∀ entry ∈ awaited ++ state.running, delivered world entry.2 = false)
    (heard : ∀ entry ∈ state.outcomes, ∀ target, started[entry.1]? = some target → delivered world target = true) :
    StartsExactly world started taskCount limits.2 := by
  have limit : state.limit = limits.2 := congrArg Prod.snd loop.ownLimits
  have next := loop.next
  have busy : ∀ entry ∈ awaited ++ state.running, unfinished world started entry.1 = true := by
    intro entry listed
    rw [unfinished, (loop.running entry listed).2]
    simp only [running entry listed, Bool.not_false]
  -- an unfinished task that has started is running
  have back : ∀ index < state.next, unfinished world started index = true → index ∈ (awaited ++ state.running).map Prod.fst := by
    intro index inside open'
    refine (loop.each index inside).resolve_right fun left => ?_
    obtain ⟨entry, listed, rfl⟩ := List.mem_map.mp left
    obtain ⟨target, known, -⟩ := loop.outcomes entry listed
    rw [unfinished, known] at open'
    simp only [heard entry listed target known, Bool.not_true] at open'
    cases open'
  have distinct : ((awaited ++ state.running).map Prod.fst).Nodup := List.pairwise_map.mpr loop.indices
  rw [← limit]
  intro index inside
  rw [next]
  constructor
  · intro begun
    refine Nat.lt_of_le_of_lt ?_ (loop.early index begun)
    rw [List.countP_eq_length_filter, List.countP_eq_length_filter, ← List.length_map (f := Prod.fst)]
    refine (List.subperm_of_subset (List.nodup_range.filter _) fun other member => ?_).length_le
    obtain ⟨below, open'⟩ := List.mem_filter.mp member
    have below := List.mem_range.mp below
    obtain ⟨entry, listed, rfl⟩ := List.mem_map.mp (back other (below.trans begun) open')
    exact List.mem_map_of_mem (List.mem_filter.mpr ⟨listed, decide_eq_true below⟩)
  · intro few
    by_contra late
    have full : state.limit ≤ (awaited ++ state.running).length := filled.resolve_left fun all => late (by omega)
    refine absurd few (Nat.not_lt.mpr (full.trans ?_))
    rw [List.countP_eq_length_filter, ← List.length_map (f := Prod.fst)]
    refine (List.subperm_of_subset distinct fun other member => ?_).length_le
    obtain ⟨entry, listed, rfl⟩ := List.mem_map.mp member
    have before := loop.inside listed
    exact List.mem_filter.mpr ⟨List.mem_range.mpr (by omega), busy entry listed⟩

end Starts

section Outcomes

variable {H : Type} {replay : Replay} {first world final : ReplayWorld H} {target result : PromiseId}
  {state : ParallelState H} {calls : Nat → BranchCall} {taskCount : Nat} {limits : ParallelMode × Nat}
  {branches started log : List PromiseId} {awaited : List (Nat × PromiseId)} {alone troubled : Prop}

/-- A pending wait has not been delivered. -/
theorem Delivered.pending (ordered : Delivered world) (handed : Handed world target) (pending : Pending world target) :
    delivered world target = false := by
  obtain ⟨promise, held, own⟩ := handed
  obtain ⟨promise', reactions, held', status⟩ := pending
  cases held.symm.trans held'
  unfold delivered
  cases placed : (world.tagOf target).bind WaitTag.completionPosition with
  | none => rfl
  | some place =>
    rw [World.tagOf, held] at placed
    rcases ordered.waits target promise held own place placed with ⟨⟨outcome, settled⟩, _⟩ | ⟨_, ahead, _⟩
    · cases status.symm.trans settled
    · exact decide_eq_false (by omega)

/-- What comes after an undelivered wait is not delivered either. -/
theorem delivered_later {other : PromiseId} (ahead : delivered world target = false)
    (least : ∀ place, (world.tagOf other).bind WaitTag.completionPosition = some place →
      ∃ best, (world.tagOf target).bind WaitTag.completionPosition = some best ∧ best ≤ place) : delivered world other = false := by
  unfold delivered
  cases placed : (world.tagOf other).bind WaitTag.completionPosition with
  | none => rfl
  | some place =>
    obtain ⟨best, own, below⟩ := least place placed
    rw [delivered, own] at ahead
    have beyond := of_decide_eq_false ahead
    exact decide_eq_false (by omega)

/-- A branch that has settled was delivered, where the context refused none of them. -/
theorem Delivered.settled (ordered : Delivered world) (uncancelled : cancelRequested replay.history = false) {index : Nat}
    (accepted : ¬ (calls index).Refusable replay) (branch : Branch replay (fun index => (calls index).task H) first world index target)
    {outcome : Except JsValue JsValue} (settled : SettledAs world target outcome) : delivered world target = true := by
  obtain ⟨before, -, answer, onward⟩ := branch
  obtain ⟨_, same, -, handed, cause, marked⟩ := (calls index).answers _ answer
  cases same
  obtain ⟨old, held, own⟩ := handed
  obtain ⟨new, held', own', tag, -⟩ := onward target old held
  obtain ⟨promise, held'', status⟩ := settled
  cases held'.symm.trans held''
  have unmarked : new.tag.cancelled = false := by
    refine Bool.eq_false_iff.mpr fun cancelled => ?_
    rw [tag] at cancelled
    cases uncancelled.symm.trans (marked old held cancelled)
  unfold delivered
  simp only [World.tagOf, held', Option.map_some, Option.bind_some]
  cases placed : new.tag.completionPosition with
  | none =>
    have stranded : Stranded world target := ⟨new, outcome, held', status, placed, unmarked⟩
    exact absurd (cause (stranded.before ⟨old, held, own⟩ onward)) accepted
  | some place =>
    rcases ordered.waits target new held' (own'.trans own) place placed with ⟨-, reached⟩ | ⟨⟨reactions, pending⟩, _⟩
    · exact decide_eq_true reached
    · cases status.symm.trans pending

/-- The tasks that a call has started, and what has become of it: it goes on, it resolves with what its tasks left, in their order,
it rejects with the failure that comes first in the history, or it rejects with what a task threw. -/
inductive CallFollows (replay : Replay) (calls : Nat → BranchCall) (taskCount : Nat) (mode : ParallelMode) (limit : Nat)
    (present : List (Except JsValue JsValue) → JsValue) (result : PromiseId) (started : List PromiseId) (world : ReplayWorld H) :
    Prop where
  | goesOn (exactly : StartsExactly world started taskCount limit)
  | resolves (outcomes : List (Except JsValue JsValue)) (exactly : StartsExactly world started taskCount limit)
      (all : started.length = taskCount) (each : outcomes.length = taskCount)
      (placed : ∀ (index : Nat) (target : PromiseId), started[index]? = some target → ∃ outcome, outcomes[index]? = some outcome ∧
        SettledAs world target outcome)
      (fulfilled : mode = .all → ∀ outcome ∈ outcomes, ∃ value, outcome = .ok value)
      (settled : SettledAs world result (.ok (present outcomes)))
  | rejects (error : JsValue) (index : Nat) (target : PromiseId) (only : mode = .all) (known : started[index]? = some target)
      (failed : SettledAs world target (.error error))
      (earliest : ∀ (other : Nat) (later : PromiseId), started[other]? = some later → other = index ∨
        (∃ value, SettledAs world later (.ok value)) ∨
        ∀ place, (world.tagOf later).bind WaitTag.completionPosition = some place →
          ∃ best, (world.tagOf target).bind WaitTag.completionPosition = some best ∧ best ≤ place)
      (settled : SettledAs world result (.error error))
  | throws (error : JsValue) (index : Nat) (inside : index < taskCount) (before : ReplayWorld H)
      (threw : (run (replayHost H replay) ((calls index).task H) before).2 = .error error)
      (settled : SettledAs world result (.error error))

/-- How the shared loop presents the outcomes of its tasks, which is what `allSettled` answers. -/
def settledValues (outcomes : List (Except JsValue JsValue)) : JsValue :=
  .array (outcomes.map settledValue)

theorem Loop.delivers (loop : Loop replay (fun index => (calls index).task H) taskCount limits first world result started awaited state)
    (ordered : Delivered world) (uncancelled : cancelRequested replay.history = false)
    (accepted : ∀ index < taskCount, ¬ (calls index).Refusable replay) :
    ∀ entry ∈ state.outcomes, ∀ target, started[entry.1]? = some target → delivered world target = true := by
  intro entry listed target known
  obtain ⟨_, known', settled⟩ := loop.outcomes entry listed
  cases known.symm.trans known'
  have inside := (List.getElem?_eq_some_iff.mp known).1
  rw [loop.next] at inside
  exact ordered.settled uncancelled (accepted _ (Nat.lt_of_lt_of_le inside loop.within)) (loop.branches _ _ known) settled

/-- The outcomes of a call that is over, in the order of the tasks. -/
theorem Loop.resolves (loop : Loop replay (fun index => (calls index).task H) taskCount limits first world result started [] state)
    (whole : state.settled = taskCount) (ordered : Delivered world) (uncancelled : cancelRequested replay.history = false)
    (accepted : ∀ index < taskCount, ¬ (calls index).Refusable replay) (settled : SettledAs world result (.ok state.outcomeValues)) :
    CallFollows replay calls taskCount limits.1 limits.2 settledValues result started world := by
  have counted := loop.counted
  have within := loop.within
  have next := loop.next
  have empty : state.running = [] := by
    rw [List.nil_append] at counted
    exact List.length_eq_zero_iff.mp (by omega)
  have all : state.next = taskCount := by
    rw [empty, List.nil_append, List.length_nil] at counted
    omega
  have exactly := loop.startsExactly (.inl all)
    (by rw [empty]; exact fun _ listed => absurd listed List.not_mem_nil) (loop.delivers ordered uncancelled accepted)
  have found : ∀ index < taskCount, ∃ entry ∈ state.outcomes, entry.1 = index := by
    intro index inside
    rcases loop.each index (by omega) with running | left
    · rw [empty] at running
      exact absurd running List.not_mem_nil
    · obtain ⟨entry, listed, same⟩ := List.mem_map.mp left
      exact ⟨entry, listed, same⟩
  refine .resolves ((List.range taskCount).map fun index => ((state.outcomes.find? fun entry => entry.1 == index).map Prod.snd).getD
    (.ok .undefined)) exactly (by omega) (by rw [List.length_map, List.length_range]) (fun index target known => ?_)
    (fun mode outcome listed => ?_) ?_
  · have inside := (List.getElem?_eq_some_iff.mp known).1
    obtain ⟨entry, listed, same⟩ := found index (by omega)
    cases search : state.outcomes.find? fun entry => entry.1 == index with
    | none => exact absurd (beq_iff_eq.mpr same) (List.find?_eq_none.mp search entry listed)
    | some chosen =>
      obtain ⟨_, known', ends⟩ := loop.outcomes chosen (List.mem_of_find?_eq_some search)
      have own := List.find?_some search
      simp only [beq_iff_eq] at own
      rw [own] at known'
      cases known.symm.trans known'
      refine ⟨chosen.2, ?_, ends⟩
      rw [List.getElem?_map, List.getElem?_range (by omega), Option.map_some, search, Option.map_some, Option.getD_some]
  · obtain ⟨index, inside, rfl⟩ := List.mem_map.mp listed
    obtain ⟨entry, member, same⟩ := found index (List.mem_range.mp inside)
    cases search : state.outcomes.find? fun entry => entry.1 == index with
    | none => exact ⟨.undefined, rfl⟩
    | some chosen =>
      exact loop.fulfilled ((congrArg Prod.fst loop.ownLimits).trans mode) chosen (List.mem_of_find?_eq_some search)
  · rw [ParallelState.outcomeValues, loop.ownCount] at settled
    rw [settledValues, List.map_map]
    refine (congrArg (fun values => SettledAs world result (.ok (.array values))) (List.map_congr_left fun index inside => ?_)).mp settled
    obtain ⟨entry, listed, same⟩ := found index (List.mem_range.mp inside)
    cases search : state.outcomes.find? fun entry => entry.1 == index with
    | none => exact absurd (beq_iff_eq.mpr same) (List.find?_eq_none.mp search entry listed)
    | some chosen => simp only [Function.comp_apply, search, Option.map_some, Option.getD_some]

/-- What a call has done when nothing is left to do. -/
theorem Follows.order (follows : Follows replay (fun index => (calls index).task H) taskCount limits alone troubled first result branches
      started world)
    (single : alone) (quiet : world.jobs = []) (ordered : Delivered world) (uncancelled : cancelRequested replay.history = false)
    (accepted : ∀ index < taskCount, ¬ (calls index).Refusable replay) (positive : 1 ≤ limits.2) :
    CallFollows replay calls taskCount limits.1 limits.2 settledValues result started world := by
  cases follows with
  | chosen _ _ _ _ _ _ queued _ | ended _ _ _ _ _ _ _ _ _ queued _ =>
    rw [quiet] at queued
    cases queued
  | settled outcome ended known begun _ _ own =>
    have settled := own single
    cases ended with
    | refused error nothing => omega
    | threw error index inside before stops _ =>
      rcases stops with threw | ⟨value, answer, other⟩
      · exact .throws error index inside before threw settled
      · obtain ⟨target, same, -⟩ := (calls index).answers value answer
        exact absurd same (other target)
    | rejected error state index target mode loop failed least =>
      refine .rejects error index target ((congrArg Prod.fst loop.ownLimits).symm.trans mode)
        (loop.running (index, target) List.mem_cons_self).2 failed (fun other later known => ?_) settled
      have inside := (List.getElem?_eq_some_iff.mp known).1
      rw [loop.next] at inside
      rcases loop.each other inside with running | left
      · obtain ⟨entry, listed, rfl⟩ := List.mem_map.mp running
        rcases List.mem_cons.mp listed with rfl | listed
        · exact .inl rfl
        · have own := (loop.running entry (List.mem_cons_of_mem _ listed)).2
          cases known.symm.trans own
          exact .inr (.inr (least entry listed))
      · obtain ⟨entry, listed, rfl⟩ := List.mem_map.mp left
        obtain ⟨_, own, ends⟩ := loop.outcomes entry listed
        cases known.symm.trans own
        obtain ⟨value, same⟩ := loop.fulfilled mode entry listed
        rw [same] at ends
        exact .inr (.inl ⟨value, ends⟩)
    | resolved state loop whole => exact loop.resolves whole ordered uncancelled accepted settled
  | waits state index target loop known filled least promise reactions held pending registered _ =>
    have ahead := ordered.pending (loop.running (index, target) List.mem_cons_self).1 ⟨promise, reactions, held, pending⟩
    refine .goesOn (loop.startsExactly filled (fun entry listed => ?_) (loop.delivers ordered uncancelled accepted))
    rcases List.mem_cons.mp listed with rfl | listed
    · exact ahead
    · exact delivered_later ahead (least entry listed)
  | stuck state loop known busy filled choice _ =>
    refine .goesOn (loop.startsExactly filled (fun entry listed => ?_) (loop.delivers ordered uncancelled accepted))
    have nothing : earliest world state.running = none := by
      unfold chooseNext at choice
      split at choice
      · cases choice
      · next nothing => exact nothing
    rw [List.nil_append] at listed
    unfold delivered
    rw [earliest_none nothing entry listed]

end Outcomes

section Calls

variable {H : Type} {replay : Replay} {world start final : ReplayWorld H} {result : PromiseId} {log : List PromiseId}

/-- The promise of `all` ends with the promise of its shared loop. -/
inductive Passes (source outer : PromiseId) (world : ReplayWorld H) : Prop where
  | settled (outcome : Except JsValue JsValue) (own : SettledAs world source outcome)
      (settled : SettledAs world outer (outcome.map fulfilledValues))
  | queued (outcome : Except JsValue JsValue) (own : SettledAs world source outcome)
      (queued : .host (.allDone outer) outcome ∈ world.jobs) (owned : Owned outer 1 world)
  | waits (promise : ReplayPromise H) (reactions : List (Reaction H (Operation H) JsValue (Resumption H)))
      (held : world.promises[source]? = some promise) (pending : promise.status = .pending reactions)
      (registered : .host (.allDone outer) ∈ reactions) (owned : Owned outer 1 world)

variable {before after : ReplayWorld H} {source outer : PromiseId}

theorem Passes.later (passes : Passes source outer before) (grows : Grows before after)
    (apart : ∀ count, Owned outer count before → Owned outer count after) : Passes source outer after := by
  cases passes with
  | settled outcome own settled => exact .settled outcome (own.later grows.keeps) (settled.later grows.keeps)
  | queued outcome own queued owned => exact .queued outcome (own.later grows.keeps) (grows.jobs _ queued) (apart 1 owned)
  | waits promise reactions held pending registered owned =>
    obtain ⟨new, held', moves⟩ := grows.promises source promise held
    rcases moves.pending reactions pending with ⟨more, same⟩ | ⟨-, outcome, same, queued⟩
    · exact .waits new _ held' same (List.mem_append_left _ registered) (apart 1 owned)
    · exact .queued outcome ⟨new, held', same⟩ (queued _ registered) (apart 1 owned)

/-- The step lemma: a job passes the outcome on, or leaves the promise of `all` alone. -/
theorem Passes.performs {job : ReplayJob H} {rest : List (ReplayJob H)} (passes : Passes source outer world)
    (queued : world.jobs = job :: rest) : Passes source outer (perform (replayHost H replay) job { world with jobs := rest }) := by
  have grows := (Grows.refl { world with jobs := rest }).perform replay job
  have popped : Keeps world { world with jobs := rest } := Keeps.refl world
  have apart (other : jobSettles outer job = false) (count : Nat) (owned : Owned outer count { world with jobs := rest }) :
      Owned outer count (perform (replayHost H replay) job { world with jobs := rest }) :=
    (Owned.isKept outer count).perform replay job (jobSettles_free other) owned
  cases passes with
  | settled outcome own settled =>
    exact .settled outcome (own.later (popped.trans grows.keeps)) (settled.later (popped.trans grows.keeps))
  | queued outcome own member owned =>
    have settles : jobSettles outer (.host (.allDone outer) outcome : ReplayJob H) = true := decide_eq_true rfl
    have later := member
    rw [queued] at later
    rcases List.mem_cons.mp later with rfl | later
    · exact .settled outcome (own.later (popped.trans grows.keeps)) ((owned.popOwn queued settles).settles _)
    · have other := owned.other queued later settles
      have still : Passes source outer { world with jobs := rest } :=
        .queued outcome (own.later popped) later (owned.popOther queued other)
      exact still.later grows (apart other)
  | waits promise reactions held pending registered owned =>
    have other := owned.waiting queued held pending registered (decide_eq_true rfl)
    have still : Passes source outer { world with jobs := rest } :=
      .waits promise reactions held pending registered (owned.popOther queued other)
    exact still.later grows (apart other)

/-- The run lemma. -/
theorem Passes.evolves (passes : Passes source outer world) (evolves : Evolves replay result world log final) :
    Passes source outer final := by
  induction evolves with
  | refl => exact passes
  | grows _ grows apart ih => exact ih.later grows (apart outer)
  | performs _ queued ih => exact ih.performs queued

theorem Passes.quiet (passes : Passes source outer world) (quiet : world.jobs = []) {outcome : Except JsValue JsValue}
    (settled : SettledAs world source outcome) : SettledAs world outer (outcome.map fulfilledValues) := by
  obtain ⟨promise, held, status⟩ := settled
  cases passes with
  | settled outcome' own settled =>
    obtain ⟨promise', held', status'⟩ := own
    cases held.symm.trans held'
    cases status.symm.trans status'
    exact settled
  | queued _ _ queued _ =>
    rw [quiet] at queued
    cases queued
  | waits promise' reactions held' pending _ _ =>
    cases held.symm.trans held'
    cases status.symm.trans pending

variable {calls : Nat → BranchCall} {taskCount : Nat}

end Calls

section Closed

def chargeCall (_ : Nat) : BranchCall := .step "charge" .undefined

end Closed

end DurableExecution.Workflow

import DurableExecution.Workflow.Ownership

/-
This file follows one call of a parallel helper through a replay. The helper settles, or one of its
branches is still pending, or the context settled one at once.
-/

namespace DurableExecution.Workflow

open EventLoop

section Branches

variable {H : Type} {replay : Replay} {first before world after final : ReplayWorld H} {target : PromiseId}
  {state : ParallelState H} {tasks : Nat → WorkflowCode H} {taskCount : Nat} {limits : ParallelMode × Nat} {alone troubled : Prop}

/-- The promises are still there, with their owners and their tags. -/
def Keeps (before after : ReplayWorld H) : Prop :=
  ∀ (target : PromiseId) (old : ReplayPromise H), before.promises[target]? = some old →
    ∃ new : ReplayPromise H, after.promises[target]? = some new ∧ new.owner = old.owner ∧ new.tag = old.tag ∧
      (∀ outcome, old.status = .settled outcome → new.status = .settled outcome) ∧
      (Unplaced old → ∀ reactions, old.status = .pending reactions → ∃ more, new.status = .pending (reactions ++ more))

theorem Grows.keeps (grows : Grows before after) : Keeps before after := by
  intro target old held
  obtain ⟨new, held', moves⟩ := grows.promises target old held
  refine ⟨new, held', moves.owner, moves.tag, moves.settled, fun unplaced reactions same => ?_⟩
  exact (moves.pending reactions same).resolve_right fun placed => placed.1 unplaced

theorem Keeps.refl (world : ReplayWorld H) : Keeps world world := (Grows.refl world).keeps

theorem Keeps.trans (one : Keeps before world) (two : Keeps world after) : Keeps before after := by
  intro target old held
  obtain ⟨middle, held, owner, tag, settled, pending⟩ := one target old held
  obtain ⟨new, held, owner', tag', settled', pending'⟩ := two target middle held
  refine ⟨new, held, owner'.trans owner, tag'.trans tag, fun outcome same => settled' outcome (settled outcome same),
    fun unplaced reactions same => ?_⟩
  obtain ⟨more, same⟩ := pending unplaced reactions same
  obtain ⟨others, same⟩ := pending' ⟨owner.trans unplaced.1, by rw [tag]; exact unplaced.2⟩ _ same
  exact ⟨more ++ others, by rw [same, List.append_assoc]⟩

/-- A promise that the context handed out for a command or a signal. -/
def Handed (world : ReplayWorld H) (target : PromiseId) : Prop :=
  ∃ promise : ReplayPromise H, world.promises[target]? = some promise ∧ promise.owner = .host

theorem Handed.later (handed : Handed before target) (keeps : Keeps before after) : Handed after target := by
  obtain ⟨old, held, owner⟩ := handed
  obtain ⟨new, held', owner', -⟩ := keeps target old held
  exact ⟨new, held', owner'.trans owner⟩

/-- A task that returns a call of the context directly, with a promise that was not there before. -/
def HandedTask (replay : Replay) (task : WorkflowCode H) : Prop :=
  ∀ world target, (run (replayHost H replay) task world).2 = .ok (.promise target) →
    world.promises.length ≤ target ∧ Handed (run (replayHost H replay) task world).1 target

/-- A promise that the context settled at once: neither a place in the history nor the mark of the cancellation. -/
def Stranded (world : ReplayWorld H) (target : PromiseId) : Prop :=
  ∃ (promise : ReplayPromise H) (outcome : _), world.promises[target]? = some promise ∧ promise.status = .settled outcome ∧
    promise.tag.completionPosition = none ∧ promise.tag.cancelled = false

def Pending (world : ReplayWorld H) (target : PromiseId) : Prop :=
  ∃ (promise : ReplayPromise H) (reactions : _), world.promises[target]? = some promise ∧ promise.status = .pending reactions

def IsSettled (world : ReplayWorld H) (target : PromiseId) : Prop :=
  ∃ (promise : ReplayPromise H) (outcome : _), world.promises[target]? = some promise ∧ promise.status = .settled outcome

/-- A promise that is settled with the outcome. -/
def SettledAs (world : ReplayWorld H) (target : PromiseId) (outcome : Except JsValue JsValue) : Prop :=
  ∃ promise : ReplayPromise H, world.promises[target]? = some promise ∧ promise.status = .settled outcome

theorem SettledAs.later {outcome : Except JsValue JsValue} (settled : SettledAs before target outcome) (keeps : Keeps before after) :
    SettledAs after target outcome := by
  obtain ⟨promise, held, status⟩ := settled
  obtain ⟨new, held', -, -, same, -⟩ := keeps target promise held
  exact ⟨new, held', same outcome status⟩

/-- The task of the index returned the promise after the helper was called. -/
def Branch (replay : Replay) (tasks : Nat → WorkflowCode H) (first world : ReplayWorld H) (index : Nat) (target : PromiseId) : Prop :=
  ∃ started, Keeps first started ∧ (run (replayHost H replay) (tasks index) started).2 = .ok (.promise target) ∧
    Keeps (run (replayHost H replay) (tasks index) started).1 world

theorem Branch.later {index : Nat} (branch : Branch replay tasks first before index target) (keeps : Keeps before after) :
    Branch replay tasks first after index target := by
  obtain ⟨started, begins, answer, onward⟩ := branch
  exact ⟨started, begins, answer, onward.trans keeps⟩

/-- The promises of the tasks were made one after the other. -/
def Ascends (started : List PromiseId) (world : ReplayWorld H) : Prop :=
  started.Pairwise (· < ·) ∧ ∀ target ∈ started, target < world.promises.length

theorem Ascends.later {started : List PromiseId} (ascends : Ascends started before) (keeps : Keeps before after) :
    Ascends started after := by
  refine ⟨ascends.1, fun target listed => ?_⟩
  obtain ⟨new, held, -⟩ := keeps target _ (List.getElem?_eq_getElem (ascends.2 target listed))
  exact (List.getElem?_eq_some_iff.mp held).1

theorem Ascends.joins {started : List PromiseId} (ascends : Ascends started before) (beyond : before.promises.length ≤ target)
    (handed : Handed after target) (keeps : Keeps before after) : Ascends (started ++ [target]) after := by
  refine ⟨List.pairwise_append.mpr ⟨ascends.1, List.pairwise_singleton _ _, fun old listed new same => ?_⟩, fun other listed => ?_⟩
  · cases List.mem_singleton.mp same
    exact Nat.lt_of_lt_of_le (ascends.2 old listed) beyond
  · rcases List.mem_append.mp listed with listed | same
    · exact (ascends.later keeps).2 other listed
    · cases List.mem_singleton.mp same
      obtain ⟨promise, held, -⟩ := handed
      exact (List.getElem?_eq_some_iff.mp held).1

/-- The locals of the loop. The tasks are started in the order of their indices, at most as many as the limit allows are not
yet over, and the others have left their outcomes. -/
structure Loop (replay : Replay) (tasks : Nat → WorkflowCode H) (taskCount : Nat) (limits : ParallelMode × Nat)
    (first world : ReplayWorld H)
    (result : PromiseId) (started : List PromiseId) (awaited : List (Nat × PromiseId)) (state : ParallelState H) : Prop where
  ownResult : state.result = result
  ownTasks : state.tasks = tasks
  ownCount : state.taskCount = taskCount
  ownLimits : (state.mode, state.limit) = limits
  limit : 1 ≤ state.limit
  next : started.length = state.next
  within : state.next ≤ taskCount
  counted : state.settled + (awaited ++ state.running).length = state.next
  room : (awaited ++ state.running).length ≤ state.limit
  indices : (awaited ++ state.running).Pairwise fun one two => one.1 ≠ two.1
  running : ∀ entry ∈ awaited ++ state.running, Handed world entry.2 ∧ started[entry.1]? = some entry.2
  branches : ∀ index target, started[index]? = some target → Branch replay tasks first world index target
  ascends : Ascends started world
  early : ∀ index < state.next, (awaited ++ state.running).countP (fun entry => decide (entry.1 < index)) < state.limit
  outcomes : ∀ entry ∈ state.outcomes, ∃ target, started[entry.1]? = some target ∧ SettledAs world target entry.2
  each : ∀ index < state.next, index ∈ (awaited ++ state.running).map Prod.fst ∨ index ∈ state.outcomes.map Prod.fst
  fulfilled : state.mode = .all → ∀ entry ∈ state.outcomes, ∃ value, entry.2 = .ok value

theorem Loop.later {result : PromiseId} {started : List PromiseId} {awaited : List (Nat × PromiseId)}
    (loop : Loop replay tasks taskCount limits first before result started awaited state) (keeps : Keeps before after) :
    Loop replay tasks taskCount limits first after result started awaited state :=
  { loop with
    running := fun entry listed => ⟨(loop.running entry listed).1.later keeps, (loop.running entry listed).2⟩
    branches := fun index target known => (loop.branches index target known).later keeps
    ascends := loop.ascends.later keeps
    outcomes := fun entry listed =>
      let ⟨target, known, settled⟩ := loop.outcomes entry listed
      ⟨target, known, settled.later keeps⟩ }

theorem Loop.inside {result : PromiseId} {started : List PromiseId} {awaited : List (Nat × PromiseId)}
    (loop : Loop replay tasks taskCount limits first world result started awaited state) {entry : Nat × PromiseId}
    (listed : entry ∈ awaited ++ state.running) : entry.1 < state.next := by
  obtain ⟨inside, -⟩ := List.getElem?_eq_some_iff.mp (loop.running entry listed).2
  rwa [loop.next] at inside

/-- The running tasks in another order, with one of them awaited. -/
theorem Loop.perm {result : PromiseId} {started : List PromiseId} {awaited others : List (Nat × PromiseId)}
    (loop : Loop replay tasks taskCount limits first world result started [] state) (same : (awaited ++ others).Perm state.running) :
    Loop replay tasks taskCount limits first world result started awaited { state with running := others } where
  ownResult := loop.ownResult
  ownTasks := loop.ownTasks
  ownCount := loop.ownCount
  ownLimits := loop.ownLimits
  limit := loop.limit
  next := loop.next
  within := loop.within
  counted := by
    dsimp only
    rw [same.length_eq]
    exact loop.counted
  room := by
    dsimp only
    rw [same.length_eq]
    exact loop.room
  indices := (same.pairwise_iff fun apart => apart.symm).mpr loop.indices
  running := fun entry listed => loop.running entry (same.mem_iff.mp listed)
  branches := loop.branches
  ascends := loop.ascends
  early := by
    intro index inside
    dsimp only
    rw [same.countP_eq]
    exact loop.early index inside
  outcomes := loop.outcomes
  each := fun index inside => (loop.each index inside).imp_left fun listed => ((same.map Prod.fst).mem_iff).mpr listed
  fulfilled := loop.fulfilled

/-- Every task is started, or no more fit in. -/
def Filled (taskCount : Nat) (awaited : List (Nat × PromiseId)) (state : ParallelState H) : Prop :=
  state.next = taskCount ∨ state.limit ≤ (awaited ++ state.running).length

theorem Filled.perm {awaited others : List (Nat × PromiseId)} (filled : Filled taskCount [] state)
    (same : (awaited ++ others).Perm state.running) : Filled taskCount awaited { state with running := others } := by
  refine filled.imp_right fun full => ?_
  dsimp only
  rw [same.length_eq]
  exact full

/-- The awaited task ends first in the history of those that are running. -/
def Least (world : ReplayWorld H) (target : PromiseId) (running : List (Nat × PromiseId)) : Prop :=
  ∀ entry ∈ running, ∀ place, (world.tagOf entry.2).bind WaitTag.completionPosition = some place →
    ∃ best, (world.tagOf target).bind WaitTag.completionPosition = some best ∧ best ≤ place

/-- The tasks that are running after a round of the loop has started what it can. -/
def roundBranches (replay : Replay) (state : ParallelState H) (world : ReplayWorld H) : List PromiseId :=
  match (startTasks (fun index => run (replayHost H replay) (state.tasks index)) (state.taskCount - state.next) state world).2 with
  | .ok later => later.running.map Prod.snd
  | .error _ => []

/-- A task that a round of the loop starts throws at once, or it answers with something else than a promise. -/
def RoundThrows (replay : Replay) (state : ParallelState H) (world : ReplayWorld H) : Prop :=
  ∃ thrown, (startTasks (fun index => run (replayHost H replay) (state.tasks index)) (state.taskCount - state.next) state world).2 =
    .error thrown

/-- How a call ended: its concurrency was refused, a task threw in a troubled round, the first failure of its tasks rejected it,
or every task left its outcome. -/
inductive Ended (replay : Replay) (tasks : Nat → WorkflowCode H) (taskCount : Nat) (limits : ParallelMode × Nat)
    (troubled : Prop) (first world : ReplayWorld H)
    (result : PromiseId) (started : List PromiseId) : Except JsValue JsValue → Prop where
  | refused (error : JsValue) (nothing : limits.2 = 0) : Ended replay tasks taskCount limits troubled first world result started (.error error)
  | threw (error : JsValue) (index : Nat) (inside : index < taskCount) (before : ReplayWorld H)
      (stops : (run (replayHost H replay) (tasks index) before).2 = .error error ∨
        ∃ value, (run (replayHost H replay) (tasks index) before).2 = .ok value ∧ ∀ target, value ≠ .promise target)
      (trouble : troubled) :
      Ended replay tasks taskCount limits troubled first world result started (.error error)
  | rejected (error : JsValue) (state : ParallelState H) (index : Nat) (target : PromiseId) (mode : state.mode = .all)
      (loop : Loop replay tasks taskCount limits first world result started [(index, target)] state)
      (settled : SettledAs world target (.error error)) (least : Least world target state.running) :
      Ended replay tasks taskCount limits troubled first world result started (.error error)
  | resolved (state : ParallelState H) (loop : Loop replay tasks taskCount limits first world result started [] state)
      (whole : state.settled = taskCount) : Ended replay tasks taskCount limits troubled first world result started (.ok state.outcomeValues)

theorem Ended.later {result : PromiseId} {started : List PromiseId} {outcome : Except JsValue JsValue}
    (ended : Ended replay tasks taskCount limits troubled first before result started outcome) (keeps : Keeps before after)
    (tags : ∀ target, Handed before target → after.tagOf target = before.tagOf target) :
    Ended replay tasks taskCount limits troubled first after result started outcome := by
  cases ended with
  | refused error nothing => exact .refused error nothing
  | threw error index inside before stops trouble => exact .threw error index inside before stops trouble
  | rejected error state index target mode loop settled least =>
    refine .rejected error state index target mode (loop.later keeps) (settled.later keeps) fun entry listed place placed => ?_
    rw [tags entry.2 (loop.running entry (List.mem_append_right _ listed)).1] at placed
    rw [tags target (loop.running (index, target) List.mem_cons_self).1]
    exact least entry listed place placed
  | resolved state loop whole => exact .resolved state (loop.later keeps) whole

/-- Where the loop of a call is: over, before its choice, at the end of a task, at a task that is still pending, or without a
choice. Where the call is alone with its promise, nobody else settles it. -/
inductive Follows (replay : Replay) (tasks : Nat → WorkflowCode H) (taskCount : Nat) (limits : ParallelMode × Nat)
    (alone troubled : Prop) (first : ReplayWorld H) (result : PromiseId)
    (branches started : List PromiseId) (world : ReplayWorld H) : Prop where
  | settled (outcome : Except JsValue JsValue) (ended : Ended replay tasks taskCount limits troubled first world result started outcome)
      (known : ∀ target ∈ started, target ∈ branches)
      (begun : ∀ index target, started[index]? = some target → Branch replay tasks first world index target)
      (ascends : Ascends started world) (settled : IsSettled world result) (own : alone → SettledAs world result outcome)
  | chosen (state : ParallelState H) (outcome : Except JsValue JsValue)
      (loop : Loop replay tasks taskCount limits first world result started [] state)
      (known : ∀ target ∈ started, target ∈ branches) (busy : state.running ≠ []) (filled : Filled taskCount [] state)
      (queued : .host (.chosen state) outcome ∈ world.jobs) (owned : alone → Owned result 1 world)
  | ended (state : ParallelState H) (index : Nat) (target : PromiseId) (outcome : Except JsValue JsValue)
      (loop : Loop replay tasks taskCount limits first world result started [(index, target)] state)
      (known : ∀ target ∈ started, target ∈ branches) (filled : Filled taskCount [(index, target)] state)
      (least : Least world target state.running) (settled : SettledAs world target outcome)
      (queued : .host (.taskSettled state index) outcome ∈ world.jobs) (owned : alone → Owned result 1 world)
  | waits (state : ParallelState H) (index : Nat) (target : PromiseId)
      (loop : Loop replay tasks taskCount limits first world result started [(index, target)] state)
      (known : ∀ target ∈ started, target ∈ branches) (filled : Filled taskCount [(index, target)] state)
      (least : Least world target state.running) (promise : ReplayPromise H)
      (reactions : List (Reaction H (Operation H) JsValue (Resumption H))) (held : world.promises[target]? = some promise)
      (pending : promise.status = .pending reactions) (registered : .host (.taskSettled state index) ∈ reactions)
      (owned : alone → Owned result 1 world)
  | stuck (state : ParallelState H) (loop : Loop replay tasks taskCount limits first world result started [] state)
      (known : ∀ target ∈ started, target ∈ branches) (busy : state.running ≠ []) (filled : Filled taskCount [] state)
      (choice : chooseNext state.running world = none) (owned : alone → Owned result 0 world)

end Branches

section Steps

variable {H : Type} {replay : Replay} {first before world after final : ReplayWorld H} {target result : PromiseId}
  {state : ParallelState H} {tasks : Nat → WorkflowCode H} {taskCount : Nat} {limits : ParallelMode × Nat}
  {alone troubled : Prop} {running : List (Nat × PromiseId)}
  {branches wider started : List PromiseId} {awaited : List (Nat × PromiseId)}

theorem tagOf_keeps {promise : ReplayPromise H} (held : before.promises[target]? = some promise) (keeps : Keeps before after) :
    after.tagOf target = before.tagOf target := by
  obtain ⟨new, held', -, tag, -⟩ := keeps target promise held
  rw [World.tagOf, World.tagOf, held, held', Option.map_some, Option.map_some, tag]

/-- The choice depends on tags that never change. -/
theorem chooseNext_keeps (known : ∀ entry ∈ running, ∃ promise : ReplayPromise H, before.promises[entry.2]? = some promise)
    (keeps : Keeps before after) : chooseNext running after = chooseNext running before := by
  have tags : ∀ entry ∈ running, after.tagOf entry.2 = before.tagOf entry.2 := fun entry listed =>
    let ⟨_, held⟩ := known entry listed
    tagOf_keeps held keeps
  have best : earliest after running = earliest before running := by
    clear known
    induction running with
    | nil => rfl
    | cons entry rest ih =>
      rw [earliest, earliest, tags entry List.mem_cons_self, ih fun other listed => tags other (List.mem_cons_of_mem _ listed)]
  have cancelled : (running.find? fun task => ((after.tagOf task.2).map WaitTag.cancelled).getD false) =
      running.find? fun task => ((before.tagOf task.2).map WaitTag.cancelled).getD false := by
    clear known best
    induction running with
    | nil => rfl
    | cons entry rest ih =>
      rw [List.find?_cons, List.find?_cons, tags entry List.mem_cons_self,
        ih fun other listed => tags other (List.mem_cons_of_mem _ listed)]
  unfold chooseNext
  rw [best, cancelled]

theorem earliest_none (choice : earliest world running = none) :
    ∀ entry ∈ running, (world.tagOf entry.2).bind WaitTag.completionPosition = none := by
  induction running with
  | nil => exact fun _ none' => absurd none' List.not_mem_nil
  | cons entry rest ih =>
    rw [earliest] at choice
    split at choice
    · split at choice <;> cases choice
    · cases choice
    · next position =>
        intro other listed
        rcases List.mem_cons.mp listed with rfl | listed
        · exact position
        · exact ih choice other listed

/-- What is chosen is running. -/
theorem earliest_mem {entry : Nat × PromiseId} {place : Nat} (choice : earliest world running = some (entry, place)) : entry ∈ running := by
  induction running generalizing entry place with
  | nil => cases choice
  | cons one rest ih =>
    rw [earliest] at choice
    split at choice
    · next later =>
        split at choice
        · cases choice
          exact List.mem_cons_of_mem _ (ih later)
        · cases choice
          exact List.mem_cons_self
    · cases choice
      exact List.mem_cons_self
    · exact List.mem_cons_of_mem _ (ih choice)

/-- The winner has the place it was chosen for. -/
theorem earliest_placed {entries : List (Nat × PromiseId)} {winner : Nat × PromiseId} {best : Nat}
    (choice : earliest world entries = some (winner, best)) : (world.tagOf winner.2).bind WaitTag.completionPosition = some best := by
  induction entries generalizing winner best with
  | nil => cases choice
  | cons one rest ih =>
    rw [earliest] at choice
    split at choice
    · next own later =>
        split at choice
        · cases choice
          exact ih later
        · cases choice
          exact own
    · next own _ =>
        cases choice
        exact own
    · exact ih choice

/-- No entry has an earlier place than the winner. -/
theorem earliest_least {entries : List (Nat × PromiseId)} {winner : Nat × PromiseId} {best : Nat}
    (choice : earliest world entries = some (winner, best)) {entry : Nat × PromiseId} (listed : entry ∈ entries) {place : Nat}
    (position : (world.tagOf entry.2).bind WaitTag.completionPosition = some place) : best ≤ place := by
  induction entries generalizing winner best with
  | nil => cases choice
  | cons one rest ih =>
    rw [earliest] at choice
    split at choice
    · next own later =>
        have tail (member : entry ∈ rest) := ih later member
        split at choice <;> cases choice <;> rcases List.mem_cons.mp listed with rfl | member
        · have same := own.symm.trans position
          cases same
          omega
        · exact tail member
        · have same := own.symm.trans position
          cases same
          exact Nat.le_refl _
        · have below := tail member
          omega
    · next own later =>
        cases choice
        rcases List.mem_cons.mp listed with rfl | member
        · have same := own.symm.trans position
          cases same
          exact Nat.le_refl _
        · cases (earliest_none later entry member).symm.trans position
    · next own =>
        rcases List.mem_cons.mp listed with rfl | member
        · cases own.symm.trans position
        · exact ih choice member

/-- The chosen task ends first in the history of those that are running. -/
theorem chooseNext_least {entry : Nat × PromiseId} (choice : chooseNext running world = some entry) : Least world entry.2 running := by
  intro other listed place placed
  unfold chooseNext at choice
  split at choice
  · next winner best found =>
      cases choice
      exact ⟨best, earliest_placed found, earliest_least found listed placed⟩
  · next nothing => cases (earliest_none nothing other listed).symm.trans placed

theorem chooseNext_mem {entry : Nat × PromiseId} (choice : chooseNext running world = some entry) : entry ∈ running := by
  unfold chooseNext at choice
  split at choice
  · next winner place best =>
      cases choice
      exact earliest_mem best
  · exact List.mem_of_find?_eq_some choice

/-- Without a choice, what is running is pending, or the context settled it at once. -/
theorem chooseNext_none (choice : chooseNext running world = none) {entry : Nat × PromiseId} (listed : entry ∈ running)
    (handed : Handed world entry.2) : Pending world entry.2 ∨ Stranded world entry.2 := by
  obtain ⟨promise, held, -⟩ := handed
  unfold chooseNext at choice
  split at choice
  · cases choice
  · next best =>
      have unplaced := earliest_none best entry listed
      have kept := List.find?_eq_none.mp choice entry listed
      simp only [World.tagOf, held, Option.map_some, Option.bind_some, Option.getD_some] at unplaced kept
      cases status : promise.status with
      | pending reactions => exact .inl ⟨promise, reactions, held, status⟩
      | settled outcome => exact .inr ⟨promise, outcome, held, status, unplaced, Bool.eq_false_iff.mpr kept⟩

theorem IsSettled.later (settled : IsSettled before target) (keeps : Keeps before after) : IsSettled after target := by
  obtain ⟨promise, outcome, held, status⟩ := settled
  obtain ⟨new, held', -, -, same, -⟩ := keeps target promise held
  exact ⟨new, outcome, held', same outcome status⟩

/-- The promise of a helper belongs to the engine. -/
def Derived (world : ReplayWorld H) (target : PromiseId) : Prop :=
  ∃ promise : ReplayPromise H, world.promises[target]? = some promise ∧ promise.owner = .derived

theorem Derived.later (derived : Derived before target) (keeps : Keeps before after) : Derived after target := by
  obtain ⟨promise, held, owner⟩ := derived
  obtain ⟨new, held', owner', -⟩ := keeps target promise held
  exact ⟨new, held', owner'.trans owner⟩

theorem Derived.settle (derived : Derived world target) (outcome : Except JsValue JsValue) :
    IsSettled (world.settle .derived target outcome) target := by
  obtain ⟨promise, held, owner⟩ := derived
  have inside : target < world.promises.length := (List.getElem?_eq_some_iff.mp held).1
  unfold World.settle
  rw [held]
  dsimp only
  split
  · rw [if_pos owner]
    exact ⟨_, outcome, List.getElem?_set_self inside, rfl⟩
  · next outcome' status => exact ⟨promise, outcome', held, status⟩

theorem Handed.tag (handed : Handed before target) (keeps : Keeps before after) : after.tagOf target = before.tagOf target := by
  obtain ⟨promise, held, -⟩ := handed
  exact tagOf_keeps held keeps

theorem Least.later {running : List (Nat × PromiseId)} (least : Least before target running) (handed : Handed before target)
    (others : ∀ entry ∈ running, Handed before entry.2) (keeps : Keeps before after) : Least after target running := by
  intro entry listed place placed
  rw [(others entry listed).tag keeps] at placed
  rw [handed.tag keeps]
  exact least entry listed place placed

theorem Loop.least {index : Nat} (loop : Loop replay tasks taskCount limits first before result started [(index, target)] state)
    (least : Least before target state.running) (keeps : Keeps before after) : Least after target state.running :=
  least.later (loop.running (index, target) List.mem_cons_self).1
    (fun entry listed => (loop.running entry (List.mem_append_right _ listed)).1) keeps

theorem Loop.chosenLeast {index : Nat}
    (loop : Loop replay tasks taskCount limits first before result started [] state) (listed : (index, target) ∈ state.running)
    (least : Least before target (state.running.filter fun entry => entry.1 != index)) (keeps : Keeps before after) :
    Least after target (state.running.filter fun entry => entry.1 != index) :=
  least.later (loop.running _ listed).1 (fun entry member => (loop.running entry (List.mem_filter.mp member).1).1) keeps

/-- A helper goes on with what the rest of the replay does. -/
theorem Follows.later (follows : Follows replay tasks taskCount limits alone troubled first result branches started before)
    (grows : Grows before after) (apart : alone → ∀ count, Owned result count before → Owned result count after) :
    Follows replay tasks taskCount limits alone troubled first result branches started after := by
  have keeps := grows.keeps
  cases follows with
  | settled outcome ended known begun ascends settled own =>
    exact .settled outcome (ended.later keeps fun target handed => handed.tag keeps) known
      (fun index target same => (begun index target same).later keeps) (ascends.later keeps) (settled.later keeps)
      fun single => (own single).later keeps
  | chosen state outcome loop known busy filled queued owned =>
    exact .chosen state outcome (loop.later keeps) known busy filled (grows.jobs _ queued)
      fun single => apart single 1 (owned single)
  | ended state index target outcome loop known filled least settled queued owned =>
    exact .ended state index target outcome (loop.later keeps) known filled (loop.least least keeps) (settled.later keeps)
      (grows.jobs _ queued) fun single => apart single 1 (owned single)
  | waits state index target loop known filled least promise reactions held pending registered owned =>
    have owned := fun single => apart single 1 (owned single)
    obtain ⟨new, held', moves⟩ := grows.promises target promise held
    rcases moves.pending reactions pending with ⟨more, same⟩ | ⟨-, outcome, same, queued⟩
    · exact .waits state index target (loop.later keeps) known filled (loop.least least keeps) new _ held' same
        (List.mem_append_left _ registered) owned
    · exact .ended state index target outcome (loop.later keeps) known filled (loop.least least keeps) ⟨new, held', same⟩
        (queued _ registered) owned
  | stuck state loop known busy filled choice owned =>
    refine .stuck state (loop.later keeps) known busy filled ?_ fun single => apart single 0 (owned single)
    rw [chooseNext_keeps (fun entry listed => ?_) keeps]
    · exact choice
    · obtain ⟨promise, held, -⟩ := (loop.running entry listed).1
      exact ⟨promise, held⟩

theorem Follows.widen (follows : Follows replay tasks taskCount limits alone troubled first result branches started world)
    (kept : ∀ target ∈ branches, target ∈ wider) :
    Follows replay tasks taskCount limits alone troubled first result wider started world := by
  cases follows with
  | settled outcome ended known begun ascends settled own =>
    exact .settled outcome ended (fun target listed => kept _ (known target listed)) begun ascends settled own
  | chosen state outcome loop known busy filled queued owned =>
    exact .chosen state outcome loop (fun target listed => kept _ (known target listed)) busy filled queued owned
  | ended state index target outcome loop known filled least settled queued owned =>
    exact .ended state index target outcome loop (fun target listed => kept _ (known target listed)) filled least settled queued owned
  | waits state index target loop known filled least promise reactions held pending registered owned =>
    exact .waits state index target loop (fun target listed => kept _ (known target listed)) filled least promise reactions held
      pending registered owned
  | stuck state loop known busy filled choice owned =>
    exact .stuck state loop (fun target listed => kept _ (known target listed)) busy filled choice owned

theorem Owned.settles {count : Nat} (owned : Owned result count world) (outcome : Except JsValue JsValue) :
    SettledAs (world.settle .derived result outcome) result outcome := by
  obtain ⟨⟨promise, reactions, held, owner, status⟩, -⟩ := owned
  have inside : result < world.promises.length := (List.getElem?_eq_some_iff.mp held).1
  unfold World.settle
  rw [held]
  dsimp only
  rw [status]
  dsimp only
  rw [if_pos owner]
  exact ⟨_, List.getElem?_set_self inside, rfl⟩

/-- A task joins those that are running. -/
theorem Loop.joins (loop : Loop replay tasks taskCount limits first world result started [] state) (inside : state.next < taskCount)
    (free : state.running.length < state.limit) (handed : Handed world target)
    (branch : Branch replay tasks first world state.next target) (ascends : Ascends (started ++ [target]) world) :
    Loop replay tasks taskCount limits first world result (started ++ [target]) []
      { state with running := state.running ++ [(state.next, target)], next := state.next + 1 } where
  ownResult := loop.ownResult
  ownTasks := loop.ownTasks
  ownCount := loop.ownCount
  ownLimits := loop.ownLimits
  limit := loop.limit
  next := by rw [List.length_append, List.length_singleton, loop.next]
  within := inside
  counted := by
    have counted := loop.counted
    simp only [List.nil_append, List.length_append, List.length_singleton] at counted ⊢
    omega
  room := by
    simp only [List.nil_append, List.length_append, List.length_singleton]
    omega
  indices := by
    change List.Pairwise _ (state.running ++ [(state.next, target)])
    refine List.pairwise_append.mpr ⟨loop.indices, List.pairwise_singleton _ _, fun entry old other new => ?_⟩
    cases List.mem_singleton.mp new
    exact Nat.ne_of_lt (loop.inside old)
  running := by
    intro entry listed
    change entry ∈ state.running ++ [(state.next, target)] at listed
    rcases List.mem_append.mp listed with old | new
    · obtain ⟨handed, known⟩ := loop.running entry old
      have before : entry.1 < started.length := (List.getElem?_eq_some_iff.mp known).1
      exact ⟨handed, by rw [List.getElem?_append_left before]; exact known⟩
    · cases List.mem_singleton.mp new
      refine ⟨handed, ?_⟩
      rw [← loop.next]
      exact List.getElem?_concat_length
  branches := by
    intro index other known
    by_cases before : index < started.length
    · rw [List.getElem?_append_left before] at known
      exact loop.branches index other known
    · have within := (List.getElem?_eq_some_iff.mp known).1
      rw [List.length_append, List.length_singleton] at within
      obtain rfl : index = started.length := by omega
      rw [List.getElem?_concat_length] at known
      cases known
      rwa [loop.next]
  ascends := ascends
  early := by
    intro index before
    rw [List.nil_append, List.countP_append]
    dsimp only at before ⊢
    rcases Nat.lt_succ_iff_lt_or_eq.mp before with before | rfl
    · have kept := loop.early index before
      rw [List.nil_append] at kept
      rw [List.countP_cons_of_neg (by simp only [decide_eq_true_eq]; omega), List.countP_nil]
      exact kept
    · rw [List.countP_cons_of_neg (by simp), List.countP_nil]
      exact Nat.lt_of_le_of_lt List.countP_le_length free
  outcomes := by
    intro entry listed
    obtain ⟨target', known, settled⟩ := loop.outcomes entry listed
    have before : entry.1 < started.length := (List.getElem?_eq_some_iff.mp known).1
    exact ⟨target', by rw [List.getElem?_append_left before]; exact known, settled⟩
  each := by
    intro index before
    rcases Nat.lt_succ_iff_lt_or_eq.mp before with before | rfl
    · refine (loop.each index before).imp_left fun listed => ?_
      rw [List.nil_append] at listed ⊢
      rw [List.map_append]
      exact List.mem_append_left _ listed
    · refine .inl ?_
      rw [List.nil_append, List.map_append]
      exact List.mem_append_right _ List.mem_cons_self
  fulfilled := loop.fulfilled

/-- A round that starts no more tasks has no room, or no tasks are left. -/
theorem Loop.full (loop : Loop replay tasks taskCount limits first world result started [] state) (unfinished : state.settled < taskCount)
    (stops : ¬ (state.next < state.taskCount ∧ state.running.length < state.limit)) :
    ∃ more, Loop replay tasks taskCount limits first world result (started ++ more) [] state ∧
      (∀ target ∈ more, target ∈ state.running.map Prod.snd) ∧ (∀ entry ∈ state.running, entry ∈ state.running) ∧
      state.running ≠ [] ∧ Filled taskCount [] state := by
  have count := loop.ownCount
  have within := loop.within
  have counted := loop.counted
  rw [List.nil_append] at counted
  refine ⟨[], by rwa [List.append_nil], fun _ none' => absurd none' List.not_mem_nil, fun _ => id, fun empty => ?_, ?_⟩
  · have limit := loop.limit
    rw [empty, List.length_nil] at counted stops
    omega
  · unfold Filled
    rw [List.nil_append]
    omega

/-- Starting tasks leaves some of them running and none for which there is room, or a task threw. -/
theorem startTasks_loop (good : ∀ index < taskCount, HandedTask replay (tasks index)) (room : Nat)
    (begins : Keeps first world) (loop : Loop replay tasks taskCount limits first world result started [] state)
    (enough : taskCount - state.next ≤ room) (unfinished : state.settled < taskCount) :
    Keeps world (startTasks (fun index => run (replayHost H replay) (tasks index)) room state world).1 ∧
      (∀ thrown, (startTasks (fun index => run (replayHost H replay) (tasks index)) room state world).2 = .error thrown →
        ∃ index < taskCount, ∃ before, (run (replayHost H replay) (tasks index) before).2 = .error thrown ∨
          ∃ value, (run (replayHost H replay) (tasks index) before).2 = .ok value ∧ ∀ target, value ≠ .promise target) ∧
      ∀ later, (startTasks (fun index => run (replayHost H replay) (tasks index)) room state world).2 = .ok later →
        ∃ more, Loop replay tasks taskCount limits first
          (startTasks (fun index => run (replayHost H replay) (tasks index)) room state world).1 result (started ++ more) [] later ∧
          (∀ target ∈ more, target ∈ later.running.map Prod.snd) ∧ (∀ entry ∈ state.running, entry ∈ later.running) ∧
          later.running ≠ [] ∧ Filled taskCount [] later := by
  induction room generalizing state world started with
  | zero =>
    have count := loop.ownCount
    rw [startTasks]
    refine ⟨.refl world, (by rintro _ ⟨⟩), ?_⟩
    rintro later ⟨⟩
    exact loop.full unfinished (by omega)
  | succ room ih =>
    rw [startTasks]
    split
    · next free =>
        have inside : state.next < taskCount := loop.ownCount ▸ free.1
        have ran := (Grows.refl world).run replay (tasks state.next)
        have returns := good state.next inside world
        split
        · next after target answer =>
            rw [answer] at ran returns
            have branch : Branch replay tasks first after state.next target :=
              ⟨world, begins, by rw [answer], by rw [answer]; exact .refl after⟩
            obtain ⟨beyond, handed⟩ := returns target rfl
            have joined := (loop.later ran.keeps).joins inside free.2 handed branch (loop.ascends.joins beyond handed ran.keeps)
            obtain ⟨kept, threw, rest⟩ := ih (begins.trans ran.keeps) joined (by dsimp only; omega) unfinished
            refine ⟨ran.keeps.trans kept, threw, fun later same => ?_⟩
            obtain ⟨more, loop', listed, olds, busy, filled⟩ := rest later same
            refine ⟨target :: more, ?_, fun other member => ?_,
              fun entry member => olds entry (List.mem_append_left _ member), busy, filled⟩
            · rw [List.append_cons started]
              exact loop'
            · rcases List.mem_cons.mp member with rfl | member
              · exact List.mem_map_of_mem (olds (state.next, _) (List.mem_append_right _ List.mem_cons_self))
              · exact listed other member
        · next after value other answer =>
            rw [answer] at ran
            refine ⟨ran.keeps, fun thrown same => ?_, by rintro _ ⟨⟩⟩
            exact ⟨state.next, inside, world, .inr ⟨value, by rw [answer], other⟩⟩
        · next after error answer =>
            rw [answer] at ran
            refine ⟨ran.keeps, fun thrown same => ?_, by rintro _ ⟨⟩⟩
            cases same
            exact ⟨state.next, inside, world, .inl (by rw [answer])⟩
    · next stops =>
        refine ⟨.refl world, (by rintro _ ⟨⟩), ?_⟩
        rintro later ⟨⟩
        exact loop.full unfinished stops

theorem roundBranches_ok {later : ParallelState H}
    (answer : startTasks (fun index => run (replayHost H replay) (state.tasks index)) (state.taskCount - state.next) state world =
      (after, .ok later)) : roundBranches replay state world = later.running.map Prod.snd := by
  unfold roundBranches
  rw [answer]

/-- One round of the loop. -/
theorem parallelLoop_follows (good : ∀ index < taskCount, HandedTask replay (tasks index)) (begins : Keeps first world)
    (derived : Derived world result) (loop : Loop replay tasks taskCount limits first world result started [] state)
    (known : ∀ target ∈ started, target ∈ branches) (owned : alone → Owned result 0 world)
    (trouble : RoundThrows replay state world → troubled) :
    ∃ more, Follows replay tasks taskCount limits alone troubled first result (branches ++ roundBranches replay state world) (started ++ more)
      (parallelLoop (fun index => run (replayHost H replay) (tasks index)) state world) := by
  have own := loop.ownTasks
  subst own
  unfold parallelLoop
  split
  · next unfinished =>
      obtain ⟨kept, threw, rest⟩ := startTasks_loop good (state.taskCount - state.next) begins loop (by rw [loop.ownCount])
        (loop.ownCount ▸ unfinished)
      have ran := fun single => (Owned.isKept result 0).byCode.startTasks (fun index _ held => (Owned.isKept result 0).byCode.run replay
        (state.tasks index) held) (state.taskCount - state.next) state (owned single)
      split
      · next later thrown answer =>
          rw [answer] at kept threw ran
          obtain ⟨index, inside, before, stops⟩ := threw thrown rfl
          have settled := (Grows.refl later).derived result (.error thrown)
          rw [loop.ownResult]
          refine ⟨[], ?_⟩
          rw [List.append_nil]
          have troubled' := trouble ⟨thrown, by rw [answer]⟩
          exact .settled _ (.threw thrown index inside before stops troubled')
            (fun target member => List.mem_append_left _ (known target member))
            (loop.later (kept.trans settled.keeps)).branches (loop.later (kept.trans settled.keeps)).ascends
            ((derived.later kept).settle _) fun single => (ran single).settles _
      · next later state' answer =>
          rw [answer] at rest ran
          obtain ⟨more, loop', listed, -, busy, filled⟩ := rest state' rfl
          refine ⟨more, .chosen state' (.ok .undefined) (loop'.later ((Grows.refl later).enqueue _).keeps) (fun target member => ?_)
            busy filled (List.mem_append_right _ List.mem_cons_self) fun single => (ran single).enqueue _⟩
          rw [roundBranches_ok answer]
          rcases List.mem_append.mp member with old | new
          · exact List.mem_append_left _ (known target old)
          · exact List.mem_append_right _ (listed target new)
  · next past =>
      have within := loop.within
      have counted := loop.counted
      have count := loop.ownCount
      have all : state.settled = taskCount := by omega
      have settled := (Grows.refl world).derived result (.ok state.outcomeValues)
      rw [loop.ownResult]
      refine ⟨[], ?_⟩
      rw [List.append_nil]
      exact .settled _ (.resolved state (loop.later settled.keeps) all) (fun target member => List.mem_append_left _ (known target member))
        (loop.later settled.keeps).branches (loop.later settled.keeps).ascends (derived.settle _) fun single => (owned single).settles _

end Steps

section Runs

variable {H : Type} {replay : Replay} {first before world after final : ReplayWorld H} {target result : PromiseId}
  {state : ParallelState H} {tasks : Nat → WorkflowCode H} {taskCount : Nat} {limits : ParallelMode × Nat}
  {alone troubled : Prop} {job : ReplayJob H} {rest : List (ReplayJob H)}
  {branches started log : List PromiseId}

/-- The tasks that run after the round of a call which the job begins. A failure of `all` begins none. -/
def jobBranches (replay : Replay) (result : PromiseId) (job : ReplayJob H) (world : ReplayWorld H) : List PromiseId :=
  match job with
  | .host (.taskSettled state index) outcome =>
    match state.mode, outcome with
    | .all, .error _ => []
    | _, _ =>
      if state.result = result then
        roundBranches replay { state with outcomes := (index, outcome) :: state.outcomes, settled := state.settled + 1 } world
      else []
  | _ => []

/-- The round of a call which the job begins starts a task that throws. -/
def JobThrows (replay : Replay) (result : PromiseId) (job : ReplayJob H) (world : ReplayWorld H) : Prop :=
  ∃ state index outcome, job = .host (.taskSettled state index) outcome ∧ state.result = result ∧
    (∀ reason, state.mode = .all → outcome = .error reason → False) ∧
    RoundThrows replay { state with outcomes := (index, outcome) :: state.outcomes, settled := state.settled + 1 } world

/-- The rest of a replay: code and releases let the world grow and leave the promise of a call alone, and the oldest job is
performed. The log lists the tasks that the call runs. -/
inductive Evolves (replay : Replay) (result : PromiseId) (start : ReplayWorld H) : List PromiseId → ReplayWorld H → Prop where
  | refl : Evolves replay result start [] start
  | grows {log : List PromiseId} {world after : ReplayWorld H} (evolves : Evolves replay result start log world)
      (grows : Grows world after) (apart : ∀ other count, Owned other count world → Owned other count after) :
      Evolves replay result start log after
  | performs {log : List PromiseId} {world : ReplayWorld H} {job : ReplayJob H} {rest : List (ReplayJob H)}
      (evolves : Evolves replay result start log world) (queued : world.jobs = job :: rest) :
      Evolves replay result start (log ++ jobBranches replay result job { world with jobs := rest })
        (perform (replayHost H replay) job { world with jobs := rest })

theorem Evolves.keeps (evolves : Evolves replay result before log after) : Keeps before after := by
  induction evolves with
  | refl => exact .refl before
  | grows evolves grows _ ih => exact ih.trans grows.keeps
  | @performs log world job rest evolves queued ih => exact ih.trans ((Grows.refl { world with jobs := rest }).perform replay job).keeps

/-- Running dry is a part of a replay. -/
theorem drain_evolves (fuel : Nat) (result : PromiseId) (drained : drain (replayHost H replay) fuel world = some final)
    (evolves : Evolves replay result first log world) : ∃ more, Evolves replay result first (log ++ more) final := by
  induction fuel generalizing world log with
  | zero =>
    cases queued : world.jobs with
    | nil =>
      rw [drain_quiet _ 0 world queued] at drained
      cases drained
      exact ⟨[], by rwa [List.append_nil]⟩
    | cons job rest => simp [drain, queued] at drained
  | succ fuel ih =>
    cases queued : world.jobs with
    | nil =>
      rw [drain_quiet _ (fuel + 1) world queued] at drained
      cases drained
      exact ⟨[], by rwa [List.append_nil]⟩
    | cons job rest =>
      rw [drain_step _ fuel world job rest queued] at drained
      obtain ⟨more, rest'⟩ := ih drained (evolves.performs queued)
      exact ⟨jobBranches replay result job { world with jobs := rest } ++ more, by rwa [← List.append_assoc]⟩

/-- A chosen task and the others. -/
theorem perm_chosen {running : List (Nat × PromiseId)} {index : Nat} (indices : running.Pairwise fun one two => one.1 ≠ two.1)
    (listed : (index, target) ∈ running) : ((index, target) :: running.filter fun entry => entry.1 != index).Perm running := by
  induction running with
  | nil => cases listed
  | cons one others ih =>
    obtain ⟨apart, indices⟩ := List.pairwise_cons.mp indices
    rcases List.mem_cons.mp listed with rfl | listed
    · have all : others.filter (fun entry => entry.1 != index) = others :=
        List.filter_eq_self.mpr fun entry member => by simpa using (apart entry member).symm
      rw [List.filter_cons_of_neg (by simp), all]
    · have other : one.1 ≠ index := apart _ listed
      rw [List.filter_cons_of_pos (by simpa using other)]
      exact (List.Perm.swap _ _ _).trans ((ih indices listed).cons one)

/-- The choice of a running task, and the wait for it. -/
theorem chosen_follows (outcome : Except JsValue JsValue) (loop : Loop replay tasks taskCount limits first world result started [] state)
    (known : ∀ target ∈ started, target ∈ branches) (busy : state.running ≠ []) (filled : Filled taskCount [] state)
    (owned : alone → Owned result 0 world) : Follows replay tasks taskCount limits alone troubled first result branches started
      (resumption replay (.chosen state) outcome (run (replayHost H replay)) world) := by
  simp only [resumption]
  split
  · next choice => exact .stuck state loop known busy filled choice owned
  · next index task choice =>
      have listed := chooseNext_mem choice
      have indices := loop.indices
      rw [List.nil_append] at indices
      have chosen : ([(index, task)] ++ state.running.filter fun entry => entry.1 != index).Perm state.running :=
        perm_chosen indices listed
      have noted := ((Grows.refl world).noteChoice replay state.running).keeps
      have remaining := (loop.perm chosen).later noted
      have least : Least world task (state.running.filter fun entry => entry.1 != index) :=
        fun entry member => chooseNext_least choice entry (List.mem_filter.mp member).1
      have least := loop.chosenLeast listed least noted
      have filled := filled.perm chosen
      obtain ⟨promise, held, -⟩ := (remaining.running (index, task) List.mem_cons_self).1
      have owned := fun single => (Owned.isKept result 0).byCode.noteChoice replay (owned single) state.running
      generalize noteChoice replay state.running world = noted' at remaining held least owned ⊢
      have reacted := ((Grows.refl noted').react task (.host (.taskSettled
        { state with running := state.running.filter fun entry => entry.1 != index } index))).keeps
      have kept := remaining.later reacted
      have least := remaining.least least reacted
      have owned := fun single => (owned single).react task (.taskSettled
        { state with running := state.running.filter fun entry => entry.1 != index } index)
      revert kept least owned
      unfold World.react
      rw [held]
      dsimp only
      split
      · next reactions status =>
          intro kept least owned
          have inside : task < noted'.promises.length := (List.getElem?_eq_some_iff.mp held).1
          exact .waits _ index task kept known filled least _ _ (List.getElem?_set_self inside) rfl
            (List.mem_append_right _ List.mem_cons_self) owned
      · next ended status =>
          intro kept least owned
          exact .ended _ index task ended kept known filled least ⟨promise, held, status⟩
            (List.mem_append_right _ List.mem_cons_self) owned

/-- The awaited task leaves its outcome. -/
theorem Loop.leaves {index : Nat} {outcome : Except JsValue JsValue}
    (loop : Loop replay tasks taskCount limits first world result started [(index, target)] state)
    (settled : SettledAs world target outcome)
    (goesOn : state.mode = .all → ∃ value, outcome = .ok value) :
    Loop replay tasks taskCount limits first world result started []
      { state with outcomes := (index, outcome) :: state.outcomes, settled := state.settled + 1 } where
  ownResult := loop.ownResult
  ownTasks := loop.ownTasks
  ownCount := loop.ownCount
  ownLimits := loop.ownLimits
  limit := loop.limit
  next := loop.next
  within := loop.within
  counted := by
    have counted := loop.counted
    simp only [List.nil_append, List.cons_append, List.length_cons] at counted ⊢
    omega
  room := by
    have room := loop.room
    simp only [List.nil_append, List.cons_append, List.length_cons] at room ⊢
    omega
  indices := (List.pairwise_cons.mp loop.indices).2
  running := fun entry listed => loop.running entry (List.mem_cons_of_mem _ listed)
  branches := loop.branches
  ascends := loop.ascends
  early := by
    intro other inside
    refine Nat.lt_of_le_of_lt ?_ (loop.early other inside)
    exact (List.sublist_cons_self _ _).countP_le
  outcomes := by
    intro entry listed
    rcases List.mem_cons.mp listed with rfl | listed
    · exact ⟨target, (loop.running (index, target) List.mem_cons_self).2, settled⟩
    · exact loop.outcomes entry listed
  each := by
    intro other inside
    rcases loop.each other inside with running | left
    · rcases List.mem_cons.mp running with rfl | running
      · exact .inr List.mem_cons_self
      · exact .inl running
    · exact .inr (List.mem_cons_of_mem _ left)
  fulfilled := by
    intro mode entry listed
    rcases List.mem_cons.mp listed with rfl | listed
    · exact goesOn mode
    · exact loop.fulfilled mode entry listed

theorem jobBranches_goesOn {index : Nat} {outcome : Except JsValue JsValue} (own : state.result = result)
    (goesOn : ∀ reason, state.mode = .all → outcome = .error reason → False) :
    jobBranches replay result (.host (.taskSettled state index) outcome) world =
      roundBranches replay { state with outcomes := (index, outcome) :: state.outcomes, settled := state.settled + 1 } world := by
  simp only [jobBranches, if_pos own]

/-- The end of a task, and the next round. -/
theorem taskSettled_follows (good : ∀ index < taskCount, HandedTask replay (tasks index)) (begins : Keeps first world)
    (derived : Derived world result) {index : Nat} {outcome : Except JsValue JsValue}
    (loop : Loop replay tasks taskCount limits first world result started [(index, target)] state)
    (known : ∀ target ∈ started, target ∈ branches) (least : Least world target state.running) (settled : SettledAs world target outcome)
    (owned : alone → Owned result 0 world) (trouble : JobThrows replay result (.host (.taskSettled state index) outcome) world → troubled) :
    ∃ more, Follows replay tasks taskCount limits alone troubled first result
      (branches ++ jobBranches replay result (.host (.taskSettled state index) outcome) world) (started ++ more)
      (resumption replay (.taskSettled state index) outcome (run (replayHost H replay)) world) := by
  have fulfilled (other : ∀ reason, state.mode = .all → outcome = .error reason → False) (mode : state.mode = .all) :
      ∃ value, outcome = .ok value := by
    cases outcome with
    | ok value => exact ⟨value, rfl⟩
    | error reason => exact (other reason mode rfl).elim
  simp only [resumption]
  split
  · next reason mode =>
      have rejects := ((Grows.refl world).derived result (.error reason)).keeps
      rw [loop.ownResult]
      refine ⟨[], ?_⟩
      rw [List.append_nil]
      exact .settled _ (.rejected reason state index target mode (loop.later rejects) (settled.later rejects)
        (loop.least least rejects)) (fun target member => List.mem_append_left _ (known target member))
        (loop.later rejects).branches (loop.later rejects).ascends (derived.settle _) fun single => (owned single).settles _
  · next goesOn =>
      have own := loop.ownTasks
      subst own
      rw [jobBranches_goesOn loop.ownResult goesOn]
      exact parallelLoop_follows good begins derived (loop.leaves settled (fulfilled goesOn)) known owned
        fun throws => trouble ⟨state, index, _, rfl, loop.ownResult, goesOn, throws⟩

/-- The step lemma: performing the oldest job keeps track of the call. -/
theorem Follows.performs (good : ∀ index < taskCount, HandedTask replay (tasks index)) (begins : Keeps first world)
    (derived : Derived world result) (follows : Follows replay tasks taskCount limits alone troubled first result branches started world)
    (queued : world.jobs = job :: rest) (trouble : JobThrows replay result job { world with jobs := rest } → troubled) :
    ∃ more, Follows replay tasks taskCount limits alone troubled first result
      (branches ++ jobBranches replay result job { world with jobs := rest }) (started ++ more)
      (perform (replayHost H replay) job { world with jobs := rest }) := by
  have popped : Keeps world { world with jobs := rest } := Keeps.refl world
  have grows := (Grows.refl { world with jobs := rest }).perform replay job
  have older : ∀ target ∈ branches, target ∈ branches ++ jobBranches replay result job { world with jobs := rest } :=
    fun target listed => List.mem_append_left _ listed
  have same (kept : Follows replay tasks taskCount limits alone troubled first result branches started
      (perform (replayHost H replay) job { world with jobs := rest })) :
      ∃ more, Follows replay tasks taskCount limits alone troubled first result
        (branches ++ jobBranches replay result job { world with jobs := rest }) (started ++ more)
        (perform (replayHost H replay) job { world with jobs := rest }) :=
    ⟨[], by rw [List.append_nil]; exact kept.widen older⟩
  -- a job that does not go on with the call leaves its promise alone
  have apart {limit : Nat} (owned : alone → Owned result limit world) (other : alone → jobSettles result job = false) :
      (alone → Owned result limit { world with jobs := rest }) ∧
        (alone → ∀ count, Owned result count { world with jobs := rest } →
          Owned result count (perform (replayHost H replay) job { world with jobs := rest })) :=
    ⟨fun single => (owned single).popOther queued (other single),
      fun single count owned => (Owned.isKept result count).perform replay job (jobSettles_free (other single)) owned⟩
  cases follows with
  | settled outcome ended known begun ascends settled own =>
    have keeps := popped.trans grows.keeps
    exact same (.settled outcome (ended.later keeps fun target handed => handed.tag keeps) known
      (fun index target same => (begun index target same).later keeps) (ascends.later keeps) (settled.later keeps)
      fun single => (own single).later keeps)
  | chosen state outcome loop known busy filled member owned =>
    have own : jobSettles result (.host (.chosen state) outcome : ReplayJob H) = true := decide_eq_true loop.ownResult
    have later := member
    rw [queued] at later
    rcases List.mem_cons.mp later with rfl | later
    · exact same (chosen_follows outcome (loop.later popped) known busy filled fun single => (owned single).popOwn queued own)
    · obtain ⟨owned, others⟩ := apart owned fun single => (owned single).other queued later own
      exact same ((Follows.chosen state outcome (loop.later popped) known busy filled later owned).later grows others)
  | ended state index target outcome loop known filled least settled member owned =>
    have own : jobSettles result (.host (.taskSettled state index) outcome : ReplayJob H) = true := decide_eq_true loop.ownResult
    have loop := loop.later popped
    have later := member
    rw [queued] at later
    rcases List.mem_cons.mp later with rfl | later
    · exact taskSettled_follows good (begins.trans popped) (derived.later popped) loop known least settled
        (fun single => (owned single).popOwn queued own) trouble
    · obtain ⟨owned, others⟩ := apart owned fun single => (owned single).other queued later own
      exact same ((Follows.ended state index target outcome loop known filled least settled later owned).later grows others)
  | waits state index target loop known filled least promise reactions held pending registered owned =>
    obtain ⟨owned, others⟩ := apart owned fun single =>
      (owned single).waiting queued held pending registered (decide_eq_true loop.ownResult)
    exact same ((Follows.waits state index target (loop.later popped) known filled least promise reactions held pending
      registered owned).later grows others)
  | stuck state loop known busy filled choice owned =>
    obtain ⟨owned, others⟩ := apart owned fun single => (owned single).none queued
    refine same ((Follows.stuck state (loop.later popped) known busy filled ?_ owned).later grows others)
    rw [chooseNext_keeps (fun entry listed => ?_) popped]
    · exact choice
    · obtain ⟨promise, held, -⟩ := (loop.running entry listed).1
      exact ⟨promise, held⟩

/-- The rest of a replay in which every task that the call starts returns its promise. -/
inductive Untroubled (replay : Replay) (result : PromiseId) (start : ReplayWorld H) : List PromiseId → ReplayWorld H → Prop where
  | refl : Untroubled replay result start [] start
  | grows {log : List PromiseId} {world after : ReplayWorld H} (evolves : Untroubled replay result start log world)
      (grows : Grows world after) (apart : ∀ other count, Owned other count world → Owned other count after) :
      Untroubled replay result start log after
  | performs {log : List PromiseId} {world : ReplayWorld H} {job : ReplayJob H} {rest : List (ReplayJob H)}
      (evolves : Untroubled replay result start log world) (queued : world.jobs = job :: rest)
      (returns : ¬ JobThrows replay result job { world with jobs := rest }) :
      Untroubled replay result start (log ++ jobBranches replay result job { world with jobs := rest })
        (perform (replayHost H replay) job { world with jobs := rest })

theorem Untroubled.evolves (rest : Untroubled replay result before log after) : Evolves replay result before log after := by
  induction rest with
  | refl => exact .refl
  | grows _ grows apart ih => exact ih.grows grows apart
  | performs _ queued _ ih => exact ih.performs queued

/-- The run lemma. -/
theorem Follows.evolves (good : ∀ index < taskCount, HandedTask replay (tasks index)) (begins : Keeps first world)
    (derived : Derived world result) (follows : Follows replay tasks taskCount limits alone troubled first result branches started world)
    (trouble : troubled) (evolves : Evolves replay result world log final) :
    ∃ more, Follows replay tasks taskCount limits alone troubled first result (branches ++ log) (started ++ more) final := by
  induction evolves with
  | refl => exact ⟨[], by rwa [List.append_nil, List.append_nil]⟩
  | grows _ grows apart ih =>
    obtain ⟨more, follows⟩ := ih
    exact ⟨more, follows.later grows fun _ => apart result⟩
  | performs evolves queued ih =>
    obtain ⟨more, follows⟩ := ih
    obtain ⟨others, follows⟩ := follows.performs good (begins.trans evolves.keeps) (derived.later evolves.keeps) queued fun _ => trouble
    exact ⟨more ++ others, by rwa [← List.append_assoc, ← List.append_assoc]⟩

theorem Follows.untroubled (good : ∀ index < taskCount, HandedTask replay (tasks index)) (begins : Keeps first world)
    (derived : Derived world result) (follows : Follows replay tasks taskCount limits alone troubled first result branches started world)
    (evolves : Untroubled replay result world log final) :
    ∃ more, Follows replay tasks taskCount limits alone troubled first result (branches ++ log) (started ++ more) final := by
  induction evolves with
  | refl => exact ⟨[], by rwa [List.append_nil, List.append_nil]⟩
  | grows _ grows apart ih =>
    obtain ⟨more, follows⟩ := ih
    exact ⟨more, follows.later grows fun _ => apart result⟩
  | performs rest queued returns ih =>
    obtain ⟨more, follows⟩ := ih
    obtain ⟨others, follows⟩ := follows.performs good (begins.trans rest.evolves.keeps) (derived.later rest.evolves.keeps) queued
      fun throws => absurd throws returns
    exact ⟨more ++ others, by rwa [← List.append_assoc, ← List.append_assoc]⟩

/-- What the call has started are its tasks, in the order of their indices. -/
theorem Follows.begun (follows : Follows replay tasks taskCount limits alone troubled first result branches started world) :
    ∀ index target, started[index]? = some target → Branch replay tasks first world index target ∧ target ∈ branches := by
  intro index target same
  have listed := List.mem_of_getElem? same
  cases follows with
  | settled _ _ known begun _ _ _ => exact ⟨begun index target same, known target listed⟩
  | chosen _ _ loop known _ _ _ _ => exact ⟨loop.branches index target same, known target listed⟩
  | ended _ _ _ _ loop known _ _ _ _ _ => exact ⟨loop.branches index target same, known target listed⟩
  | waits _ _ _ loop known _ _ _ _ _ _ _ _ => exact ⟨loop.branches index target same, known target listed⟩
  | stuck _ loop known _ _ _ _ => exact ⟨loop.branches index target same, known target listed⟩

theorem Follows.ascends (follows : Follows replay tasks taskCount limits alone troubled first result branches started world) :
    Ascends started world := by
  cases follows with
  | settled _ _ _ _ ascends _ _ => exact ascends
  | chosen _ _ loop _ _ _ _ _ => exact loop.ascends
  | ended _ _ _ _ loop _ _ _ _ _ _ => exact loop.ascends
  | waits _ _ _ loop _ _ _ _ _ _ _ _ _ => exact loop.ascends
  | stuck _ loop _ _ _ _ _ => exact loop.ascends

/-- At the end of a replay the call has settled, or one of its tasks is pending, or the context settled one at once. -/
theorem Follows.quiet (follows : Follows replay tasks taskCount limits alone troubled first result branches started world)
    (quiet : world.jobs = []) :
    IsSettled world result ∨ ∃ target ∈ branches, (∃ index < taskCount, Branch replay tasks first world index target) ∧
      (Pending world target ∨ Stranded world target) := by
  have branch {awaited : List (Nat × PromiseId)} {state : ParallelState H} {entry : Nat × PromiseId}
      (loop : Loop replay tasks taskCount limits first world result started awaited state) (listed : entry ∈ awaited ++ state.running) :
      ∃ index < taskCount, Branch replay tasks first world index entry.2 :=
    ⟨entry.1, Nat.lt_of_lt_of_le (loop.inside listed) loop.within, loop.branches _ _ (loop.running entry listed).2⟩
  cases follows with
  | settled _ _ _ _ _ settled _ => exact .inl settled
  | chosen _ _ _ _ _ _ queued _ | ended _ _ _ _ _ _ _ _ _ queued _ =>
    rw [quiet] at queued
    cases queued
  | waits state index target loop known filled least promise reactions held pending _ _ =>
    refine .inr ⟨target, known target ?_, branch loop (show (index, target) ∈ _ from List.mem_cons_self),
      .inl ⟨promise, reactions, held, pending⟩⟩
    exact List.mem_of_getElem? (loop.running (index, target) List.mem_cons_self).2
  | stuck state loop known busy filled choice _ =>
    obtain ⟨entry, listed⟩ := List.exists_mem_of_ne_nil _ busy
    obtain ⟨handed, place⟩ := loop.running entry listed
    exact .inr ⟨entry.2, known _ (List.mem_of_getElem? place), branch loop listed, chooseNext_none choice listed handed⟩

/-- A promise of the engine that is settled with another one. -/
inductive Relays (resume : Resumption H) (source target : PromiseId) (world : ReplayWorld H) : Prop where
  | settled (settled : IsSettled world target)
  | queued (outcome : Except JsValue JsValue) (queued : .host resume outcome ∈ world.jobs)
  | waits (promise : ReplayPromise H) (reactions : List (Reaction H (Operation H) JsValue (Resumption H)))
      (held : world.promises[source]? = some promise) (pending : promise.status = .pending reactions)
      (registered : .host resume ∈ reactions)

/-- A reaction that settles a promise of the engine. -/
def Settles (replay : Replay) (resume : Resumption H) (target : PromiseId) : Prop :=
  ∀ outcome (world : ReplayWorld H), ∃ outcome', resumption replay resume outcome (run (replayHost H replay)) world =
    world.settle .derived target outcome'

variable {resume : Resumption H} {source : PromiseId}

theorem Relays.later (relays : Relays resume source target before) (grows : Grows before after) : Relays resume source target after := by
  cases relays with
  | settled settled => exact .settled (settled.later grows.keeps)
  | queued outcome queued => exact .queued outcome (grows.jobs _ queued)
  | waits promise reactions held pending registered =>
    obtain ⟨new, held', moves⟩ := grows.promises source promise held
    rcases moves.pending reactions pending with ⟨more, same⟩ | ⟨-, outcome, same, queued⟩
    · exact .waits new _ held' same (List.mem_append_left _ registered)
    · exact .queued outcome (queued _ registered)

theorem Relays.evolves (settles : Settles replay resume target) (derived : Derived world target)
    (relays : Relays resume source target world) (evolves : Evolves replay result world log final) : Relays resume source target final := by
  induction evolves with
  | refl => exact relays
  | grows _ grows _ ih => exact ih.later grows
  | @performs log middle job rest evolves queued ih =>
    have grows := (Grows.refl { middle with jobs := rest }).perform replay job
    have kept : Keeps middle { middle with jobs := rest } := Keeps.refl middle
    cases ih with
    | settled settled => exact .settled (settled.later (kept.trans grows.keeps))
    | queued outcome member =>
      rw [queued] at member
      rcases List.mem_cons.mp member with rfl | member
      · obtain ⟨outcome', same⟩ := settles outcome { middle with jobs := rest }
        refine .settled ?_
        change IsSettled (resumption replay resume outcome (run (replayHost H replay)) { middle with jobs := rest }) target
        rw [same]
        exact ((derived.later evolves.keeps).later kept).settle _
      · have still : Relays resume source target { middle with jobs := rest } := .queued outcome member
        exact still.later grows
    | waits promise reactions held pending registered =>
      have still : Relays resume source target { middle with jobs := rest } := .waits promise reactions held pending registered
      exact still.later grows

theorem Relays.quiet (relays : Relays resume source target world) (quiet : world.jobs = []) :
    IsSettled world target ∨ Pending world source := by
  cases relays with
  | settled settled => exact .inl settled
  | queued _ queued =>
    rw [quiet] at queued
    cases queued
  | waits promise reactions held pending _ => exact .inr ⟨promise, reactions, held, pending⟩

end Runs

end DurableExecution.Workflow

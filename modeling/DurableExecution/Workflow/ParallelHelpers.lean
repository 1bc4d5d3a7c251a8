import DurableExecution.Workflow.Feeding
import DurableExecution.Workflow.ParallelLoop

/-
This file shows when the parallel helpers of a context settle. They do once their branches have
settled, where the context has rejected none of these at once; a selection needs one that ends in the
history.
-/

namespace DurableExecution.Workflow

open EventLoop

section Calls

variable {H : Type} {replay : Replay} {first before world after final : ReplayWorld H} {target result source : PromiseId}
  {state : ParallelState H} {tasks : Nat → WorkflowCode H} {taskCount : Nat} {resume : Resumption H} {log : List PromiseId}

theorem alloc_getElem (promise : ReplayPromise H) (world : ReplayWorld H) :
    (world.alloc promise).2.promises[(world.alloc promise).1]? = some promise := by
  simp [World.alloc]

theorem alloc_derived (world : ReplayWorld H) :
    Derived (world.alloc ⟨.derived, (default : WaitTag), .pending []⟩).2 (world.alloc ⟨.derived, (default : WaitTag), .pending []⟩).1 :=
  ⟨_, alloc_getElem _ world, rfl⟩

/-- The tasks that run after the first round of a call of the shared loop. -/
def firstBranches (replay : Replay) (tasks : Nat → WorkflowCode H) (taskCount : Nat) (concurrency : Option JsNumber)
    (mode : ParallelMode) (world : ReplayWorld H) : List PromiseId :=
  let result := world.alloc ⟨.derived, default, .pending []⟩
  match validateConcurrency concurrency taskCount with
  | .error _ => []
  | .ok limit => roundBranches replay ⟨result.1, mode, taskCount, tasks, limit, 0, 0, [], []⟩ result.2

/-- A task that the first round of a call starts throws at once. -/
def FirstThrows (replay : Replay) (tasks : Nat → WorkflowCode H) (taskCount : Nat) (concurrency : Option JsNumber)
    (mode : ParallelMode) (world : ReplayWorld H) : Prop :=
  let result := world.alloc ⟨.derived, default, .pending []⟩
  ∃ limit, validateConcurrency concurrency taskCount = .ok limit ∧
    RoundThrows replay ⟨result.1, mode, taskCount, tasks, limit, 0, 0, [], []⟩ result.2

/-- How many tasks of a call may run at once. -/
def limitOf (concurrency : Option JsNumber) (taskCount : Nat) : Nat :=
  match validateConcurrency concurrency taskCount with
  | .ok limit => limit
  | .error _ => 0

/-- A limit that is accepted lets a task run. -/
theorem validateConcurrency_pos {concurrency : Option JsNumber} {limit : Nat}
    (valid : validateConcurrency concurrency taskCount = .ok limit) : 1 ≤ limit := by
  unfold validateConcurrency at valid
  split at valid
  · cases valid
    exact Nat.le_max_right _ _
  · next value =>
      split at valid
      · next whole =>
          cases valid
          have above := (Rat.le_iff 1 value).mp whole.2
          simp only [Rat.num_ofNat, Rat.den_ofNat, whole.1] at above
          omega
      · cases valid
  · cases valid

theorem runParallel_result (runTask : Nat → ReplayEffect H) (tasks : Nat → WorkflowCode H) (taskCount : Nat)
    (concurrency : Option JsNumber) (mode : ParallelMode) (world : ReplayWorld H) :
    (runParallel runTask tasks taskCount concurrency mode world).1 = world.promises.length := by
  unfold runParallel
  dsimp only
  split <;> rfl

/-- A call of the shared loop begins to be followed. -/
theorem runParallel_follows (good : ∀ index < taskCount, HandedTask replay (tasks index)) (concurrency : Option JsNumber)
    (mode : ParallelMode) (world : ReplayWorld H) (troubled : Prop)
    (trouble : FirstThrows replay tasks taskCount concurrency mode world → troubled) :
    let answer := runParallel (fun index => run (replayHost H replay) (tasks index)) tasks taskCount concurrency mode world
    Keeps world answer.2 ∧ Derived answer.2 answer.1 ∧
      ∃ started, Follows replay tasks taskCount (mode, limitOf concurrency taskCount) (Fresh world) troubled world answer.1
        (firstBranches replay tasks taskCount concurrency mode world) started answer.2 := by
  have begins := ((Grows.refl world).alloc ⟨.derived, (default : WaitTag), .pending []⟩).keeps
  have derived := alloc_derived world
  unfold runParallel firstBranches
  dsimp only
  split
  · next invalid refused =>
      have settles := ((Grows.refl (world.alloc ⟨.derived, (default : WaitTag), .pending []⟩).2).derived
        (world.alloc ⟨.derived, (default : WaitTag), .pending []⟩).1 (.error invalid)).keeps
      exact ⟨begins.trans settles, derived.later settles, [],
        .settled _ (.refused invalid (by rw [limitOf, refused])) (fun _ listed => absurd listed List.not_mem_nil)
          (fun _ _ same => nomatch same) ⟨.nil, fun _ listed => absurd listed List.not_mem_nil⟩ (derived.settle _)
          fun fresh => fresh.owned.settles _⟩
  · next limit valid =>
      have positive := validateConcurrency_pos valid
      have none' {P : Nat × PromiseId → Prop} : ∀ entry ∈ ([] : List (Nat × PromiseId)), P entry :=
        fun _ listed => absurd listed List.not_mem_nil
      have loop : Loop replay tasks taskCount (mode, limitOf concurrency taskCount) world
          (world.alloc ⟨.derived, (default : WaitTag), .pending []⟩).2
          (world.alloc ⟨.derived, (default : WaitTag), .pending []⟩).1 [] []
          ⟨(world.alloc ⟨.derived, (default : WaitTag), .pending []⟩).1, mode, taskCount, tasks, limit, 0, 0, [], []⟩ :=
        ⟨rfl, rfl, rfl, by rw [limitOf, valid], positive, rfl, Nat.zero_le _, rfl, Nat.zero_le _, List.Pairwise.nil, none',
          (fun _ _ same => nomatch same), ⟨.nil, fun _ listed => absurd listed List.not_mem_nil⟩,
          (fun _ inside => absurd inside (Nat.not_lt_zero _)),
          fun _ listed => absurd listed List.not_mem_nil, fun _ inside => absurd inside (Nat.not_lt_zero _),
          fun _ _ listed => absurd listed List.not_mem_nil⟩
      have runs := (Grows.isKept _).byCode.parallelLoop (fun index _ kept => kept.run replay (tasks index))
        ⟨(world.alloc ⟨.derived, (default : WaitTag), .pending []⟩).1, mode, taskCount, tasks, limit, 0, 0, [], []⟩ trivial
        (Grows.refl (world.alloc ⟨.derived, (default : WaitTag), .pending []⟩).2)
      obtain ⟨more, follows⟩ := parallelLoop_follows good begins derived loop
        (fun _ listed => absurd listed List.not_mem_nil : ∀ target ∈ [], target ∈ ([] : List PromiseId)) Fresh.owned
        fun throws => trouble ⟨limit, valid, throws⟩
      simp only [valid]
      exact ⟨begins.trans runs.keeps, derived.later runs.keeps, _, follows⟩

/-- A reaction of the engine is queued or waits. -/
theorem react_relays {promise : ReplayPromise H} (held : world.promises[source]? = some promise) :
    Relays resume source target (world.react source (.host resume)) := by
  have inside : source < world.promises.length := (List.getElem?_eq_some_iff.mp held).1
  unfold World.react
  rw [held]
  dsimp only
  split
  · exact .waits _ _ (List.getElem?_set_self inside) rfl (List.mem_append_right _ List.mem_cons_self)
  · exact .queued _ (List.mem_append_right _ List.mem_cons_self)

theorem IsSettled.not_pending (settled : IsSettled world target) : ¬ Pending world target := by
  obtain ⟨promise, outcome, held, status⟩ := settled
  rintro ⟨promise', reactions, held', pending⟩
  cases held.symm.trans held'
  cases status.symm.trans pending

/-- A call of the shared loop settles, or one of its tasks is pending, or the context settled one at once. -/
theorem runParallel_settles (good : ∀ index < taskCount, HandedTask replay (tasks index)) (concurrency : Option JsNumber)
    (mode : ParallelMode) (evolves : Evolves replay
      (runParallel (fun index => run (replayHost H replay) (tasks index)) tasks taskCount concurrency mode world).1
      (runParallel (fun index => run (replayHost H replay) (tasks index)) tasks taskCount concurrency mode world).2 log final)
    (quiet : final.jobs = []) : IsSettled final
      (runParallel (fun index => run (replayHost H replay) (tasks index)) tasks taskCount concurrency mode world).1 ∨
      ∃ target ∈ firstBranches replay tasks taskCount concurrency mode world ++ log,
        (∃ index < taskCount, Branch replay tasks world final index target) ∧ (Pending final target ∨ Stranded final target) := by
  obtain ⟨begins, derived, started, follows⟩ := runParallel_follows good concurrency mode world True fun _ => trivial
  obtain ⟨more, follows⟩ := follows.evolves good begins derived trivial evolves
  exact follows.quiet quiet

/-- The call of the shared loop behind `all`. -/
def allOutcomes (replay : Replay) (tasks : Nat → WorkflowCode H) (taskCount : Nat) (concurrency : Option JsNumber)
    (world : ReplayWorld H) : PromiseId × ReplayWorld H :=
  runParallel (fun index => run (replayHost H replay) (tasks index)) tasks taskCount concurrency .all
    (world.alloc ⟨.derived, default, .pending []⟩).2

/-- `all` settles with the shared loop. -/
theorem all_settles (good : ∀ index < taskCount, HandedTask replay (tasks index)) (concurrency : Option JsNumber)
    (evolves : Evolves replay (allOutcomes replay tasks taskCount concurrency world).1
      (all (fun index => run (replayHost H replay) (tasks index)) tasks taskCount concurrency world).1 log final)
    (quiet : final.jobs = []) : ∃ result, (all (fun index => run (replayHost H replay) (tasks index)) tasks taskCount concurrency world).2 =
        .ok (.promise result) ∧ (IsSettled final result ∨ ∃ target ∈ firstBranches replay tasks taskCount concurrency .all
          (world.alloc ⟨.derived, default, .pending []⟩).2 ++ log,
        (∃ index < taskCount, Branch replay tasks world final index target) ∧ (Pending final target ∨ Stranded final target)) := by
  refine ⟨(world.alloc ⟨.derived, (default : WaitTag), .pending []⟩).1, rfl, ?_⟩
  have allocated := ((Grows.refl world).alloc ⟨.derived, (default : WaitTag), .pending []⟩).keeps
  have own := alloc_derived world
  obtain ⟨begins, derived, started, follows⟩ := runParallel_follows good concurrency .all
    (world.alloc ⟨.derived, (default : WaitTag), .pending []⟩).2 True fun _ => trivial
  have ⟨promise, held, _⟩ := derived
  unfold allOutcomes all at evolves
  dsimp only [returned] at evolves
  have other := runParallel_result (fun index => run (replayHost H replay) (tasks index)) tasks taskCount concurrency .all
    (world.alloc ⟨.derived, (default : WaitTag), .pending []⟩).2
  generalize (runParallel (fun index => run (replayHost H replay) (tasks index)) tasks taskCount concurrency .all
    (world.alloc ⟨.derived, (default : WaitTag), .pending []⟩).2) = outcomes at begins derived follows held evolves other
  have reacted := (Grows.refl outcomes.2).react outcomes.1
    (.host (.allDone (world.alloc ⟨.derived, (default : WaitTag), .pending []⟩).1))
  have relays := (react_relays held : Relays (.allDone (world.alloc ⟨.derived, (default : WaitTag), .pending []⟩).1) outcomes.1
    (world.alloc ⟨.derived, (default : WaitTag), .pending []⟩).1 _).evolves (fun _ _ => ⟨_, rfl⟩)
    ((own.later begins).later reacted.keeps) evolves
  have apart : ∀ count, Owned outcomes.1 count outcomes.2 → Owned outcomes.1 count (outcomes.2.react outcomes.1
      (.host (.allDone (world.alloc ⟨.derived, (default : WaitTag), .pending []⟩).1))) := by
    refine fun count => (Owned.isKept outcomes.1 count).react _ _ fun resume same => ?_
    cases same
    change world.promises.length ≠ outcomes.1
    rw [other]
    simp [World.alloc]
  obtain ⟨more, loop⟩ := (follows.later reacted fun _ => apart).evolves good (begins.trans reacted.keeps)
    (derived.later reacted.keeps) trivial evolves
  rcases relays.quiet quiet with settled | pending
  · exact .inl settled
  · rcases loop.quiet quiet with settled | ⟨target, listed, branch, waits⟩
    · exact absurd pending settled.not_pending
    · obtain ⟨index, inside, before, onward, answer, ends⟩ := branch
      exact .inr ⟨target, listed, ⟨index, inside, before, allocated.trans onward, answer, ends⟩, waits⟩

theorem zipIdx_entry {branches : List PromiseId} {entry : Nat × PromiseId}
    (listed : entry ∈ branches.zipIdx.map Prod.swap) : entry.2 ∈ branches := by
  obtain ⟨pair, inside, same⟩ := List.mem_map.mp listed
  cases same
  exact List.mem_of_getElem? (List.mem_zipIdx_iff_getElem?.mp inside)

/-- A selection settles with the branch that ended first in the history. -/
theorem select_settles {branches : List PromiseId} (listed : target ∈ branches)
    (placed : (world.tagOf target).bind WaitTag.completionPosition ≠ none)
    (evolves : Evolves replay source (select branches world).1 log final) (quiet : final.jobs = []) :
    ∃ result, (select branches world).2 = .ok (.promise result) ∧ (IsSettled final result ∨ ∃ branch ∈ branches, Pending final branch) := by
  unfold select at evolves ⊢
  dsimp only at evolves ⊢
  split at evolves
  · next winner chosen best choice =>
      refine ⟨_, rfl, ?_⟩
      have branch := zipIdx_entry (earliest_mem choice)
      have place := earliest_placed choice
      have own := alloc_derived world
      obtain ⟨promise, held⟩ : ∃ promise, world.promises[chosen]? = some promise := by
        cases known : world.promises[chosen]? with
        | none => simp [World.tagOf, known] at place
        | some promise => exact ⟨promise, rfl⟩
      obtain ⟨_, held', -⟩ := ((Grows.refl world).alloc ⟨.derived, (default : WaitTag), .pending []⟩).promises chosen promise held
      have reacted := (Grows.refl (world.alloc ⟨.derived, (default : WaitTag), .pending []⟩).2).react chosen
        (.host (.selected (world.alloc ⟨.derived, (default : WaitTag), .pending []⟩).1 winner))
      have relays := (react_relays held' : Relays
        (.selected (world.alloc ⟨.derived, (default : WaitTag), .pending []⟩).1 winner) chosen
        (world.alloc ⟨.derived, (default : WaitTag), .pending []⟩).1 _).evolves (fun _ _ => ⟨_, rfl⟩) (own.later reacted.keeps) evolves
      exact (relays.quiet quiet).imp_right fun pending => ⟨chosen, branch, pending⟩
  · next none' =>
      obtain ⟨index, inside, here⟩ := List.mem_iff_getElem.mp listed
      have entry : (index, target) ∈ branches.zipIdx.map Prod.swap := by
        refine List.mem_map.mpr ⟨(target, index), ?_, rfl⟩
        rw [List.mem_zipIdx_iff_getElem?, List.getElem?_eq_getElem inside, here]
      exact absurd (earliest_none none' _ entry) placed

end Calls

section Branches

variable {H : Type} {replay : Replay} {world after final : ReplayWorld H} {target : PromiseId} {cause marked : Prop}

/-- A wait that a task returns directly, or that a selection is given. -/
inductive BranchCall where
  | step (stepType : String) (input : JsValue)
  | sleep (durationMs : JsNumber)
  | waitForSignal (signalName : String)
  | child (workflowType : String) (input : JsValue) (options : ChildOptions)

def BranchCall.call (H : Type) : BranchCall → ContextCall H
  | .step stepType input => .step stepType input
  | .sleep durationMs => .sleep durationMs
  | .waitForSignal signalName => .waitForSignal signalName
  | .child workflowType input options => .executeChild workflowType input options

/-- A task that returns a call of the workflow's context. -/
def BranchCall.task (H : Type) (branch : BranchCall) : WorkflowCode H :=
  .call ⟨.workflow, branch.call H⟩ (fun _ => .finish (.ok .undefined)) .finish

/-- Why the context may settle a branch at once: the run is cancelled, or the duration is not one. -/
def BranchCall.Refusable (replay : Replay) : BranchCall → Prop
  | .step .. | .waitForSignal _ => cancelRequested replay.history = true
  | .sleep durationMs => cancelRequested replay.history = true ∨ durationMs.sleepMs = none
  | .child .. => False

/-- An answer that is an error or a promise, which the context handed out. It settled it at once for the cause alone, and marked
it as ended by the cancellation for another. -/
def Answers (bound : Nat) (cause marked : Prop) (answer : ReplayWorld H × Except JsValue JsValue) : Prop :=
  ∀ value, answer.2 = .ok value →
    ∃ target, value = .promise target ∧ bound ≤ target ∧ Handed answer.1 target ∧ (Stranded answer.1 target → cause) ∧
      ∀ promise : ReplayPromise H, answer.1.promises[target]? = some promise → promise.tag.cancelled = true → marked

theorem answers_alloc (tag : WaitTag) (status : Status H (Operation H) JsValue (Resumption H))
    (settled : ∀ outcome, status = .settled outcome → tag.completionPosition = none → tag.cancelled = false → cause)
    (mark : tag.cancelled = true → marked) : Answers world.promises.length cause marked (returned (world.alloc ⟨.host, tag, status⟩)) := by
  rintro value ⟨⟩
  have held := alloc_getElem ⟨.host, tag, status⟩ world
  refine ⟨_, rfl, Nat.le_refl _, ⟨_, held, rfl⟩, ?_, fun promise held' cancelled => ?_⟩
  · rintro ⟨promise, outcome, held', ended, unplaced, kept⟩
    cases held.symm.trans held'
    exact settled outcome ended unplaced kept
  · cases held.symm.trans held'
    exact mark cancelled

theorem answers_neverSettles : Answers world.promises.length cause marked (neverSettles world) :=
  answers_alloc _ _ (fun _ same => nomatch same) fun same => nomatch same

theorem answers_rejectedWith (error : JsValue) (reason : cause) : Answers world.promises.length cause marked (rejectedWith error world) :=
  answers_alloc _ _ (fun _ _ _ _ => reason) fun same => nomatch same

theorem answers_rejectedByCancellation (mark : marked) : Answers world.promises.length cause marked (rejectedByCancellation world) :=
  answers_alloc _ _ (fun _ _ _ kept => nomatch kept) fun _ => mark

theorem answers_completedAt (place : Nat) (outcome : Except JsValue JsValue) :
    Answers world.promises.length cause marked (completedAt place outcome world) := by
  unfold completedAt
  dsimp only
  split
  · exact answers_alloc _ _ (fun _ _ unplaced => nomatch unplaced) fun same => nomatch same
  · exact answers_alloc _ _ (fun _ same => nomatch same) fun same => nomatch same

theorem answers_error {bound : Nat} (error : JsValue) :
    Answers bound cause marked ((world, .error error) : ReplayWorld H × Except JsValue JsValue) :=
  fun _ same => nomatch same

theorem step_handsOut (cancelled : Bool) (stepType : String) (input : JsValue) :
    Answers world.promises.length (cancelled = true) marked (step replay cancelled stepType input world) := by
  unfold step
  dsimp only [issue]
  split
  · exact answers_error _
  · next recorded answer =>
      obtain ⟨rfl, -⟩ := Prod.mk.inj answer
      split
      · exact answers_completedAt _ _
      · split
        · next refused => exact answers_rejectedWith _ (Bool.and_eq_true_iff.mp refused).2
        · cases cancelled <;> cases recorded <;> exact answers_neverSettles

theorem sleep_handsOut (cancelled : Bool) (durationMs : JsNumber) :
    Answers world.promises.length (cancelled = true ∨ durationMs.sleepMs = none) marked (sleep replay cancelled durationMs world) := by
  unfold sleep
  split
  · next invalid => exact answers_rejectedWith _ (.inr invalid)
  · dsimp only [issue]
    split
    · exact answers_error _
    · next answer =>
        obtain ⟨rfl, -⟩ := Prod.mk.inj answer
        split
        · exact answers_completedAt _ _
        · split
          · next refused => exact answers_rejectedWith _ (.inl refused)
          · split
            · exact answers_neverSettles
            · split
              · exact answers_error _
              · exact answers_neverSettles

theorem waitForSignal_handsOut (cancelled : Bool) (signalName : String) :
    Answers world.promises.length (cancelled = true) marked (waitForSignal replay cancelled signalName world) := by
  unfold waitForSignal
  dsimp only
  split
  · exact answers_completedAt _ _
  · split
    · next refused => exact answers_rejectedWith _ refused
    · exact answers_neverSettles

/-- A child's promise is never settled without a mark. -/
theorem startChild_handsOut (cancelled : Bool) (workflowType : String) (input : JsValue) (options : ChildOptions) :
    Answers world.promises.length cause (cancelled = true) ((startChild replay cancelled workflowType input options world).1,
      (startChild replay cancelled workflowType input options world).2.map Prod.snd) := by
  have mapped (answer : ReplayWorld H × Except JsValue JsValue) (childId : String)
      (answers : Answers world.promises.length cause (cancelled = true) answer) :
      Answers world.promises.length cause (cancelled = true) (answer.1, (answer.2.map fun result => (childId, result)).map Prod.snd) := by
    intro value same
    refine answers value ?_
    cases known : answer.2 with
    | error thrown => rw [known] at same; cases same
    | ok result => rw [known] at same; exact same
  unfold startChild
  dsimp only [issue]
  split
  · exact answers_error _
  · split
    · exact answers_error _
    · next recorded answer =>
        obtain ⟨rfl, -⟩ := Prod.mk.inj answer
        split
        · exact answers_error _
        · apply mapped
          split
          · cases recorded <;> exact answers_completedAt _ _
          · split
            · next requested => cases recorded <;> exact answers_rejectedByCancellation requested
            · cases recorded <;> exact answers_neverSettles

/-- A branch is handed out by the context, and settled at once where it may be. -/
theorem BranchCall.answers (branch : BranchCall) :
    Answers world.promises.length (branch.Refusable replay) (cancelRequested replay.history = true)
      (run (replayHost H replay) (branch.task H) world) := by
  cases branch with
  | step stepType input => exact step_handsOut (cancelRequested replay.history) stepType input
  | sleep durationMs => exact sleep_handsOut (cancelRequested replay.history) durationMs
  | waitForSignal signalName => exact waitForSignal_handsOut (cancelRequested replay.history) signalName
  | child workflowType input options => exact startChild_handsOut (cancelRequested replay.history) workflowType input options

theorem BranchCall.handed (branch : BranchCall) : HandedTask replay (branch.task H) := by
  intro world target same
  obtain ⟨target', own, beyond, handed, -⟩ := branch.answers _ same
  cases own
  exact ⟨beyond, handed⟩

/-- What is stranded in the end was stranded when the context handed it out. -/
theorem Stranded.before (stranded : Stranded final target) (handed : Handed world target) (keeps : Keeps world final) :
    Stranded world target := by
  obtain ⟨new, outcome, held, status, unplaced, kept⟩ := stranded
  obtain ⟨old, held', owner⟩ := handed
  obtain ⟨new', held'', -, tag, -, pending⟩ := keeps target old held'
  cases held.symm.trans held''
  rw [tag] at unplaced kept
  cases before : old.status with
  | settled outcome' => exact ⟨old, outcome', held', before, unplaced, kept⟩
  | pending reactions =>
    obtain ⟨more, same⟩ := pending ⟨owner, unplaced⟩ reactions before
    cases status.symm.trans same

/-- A task of the list that is stranded is one the context may refuse. -/
theorem stranded_refusable {calls : Nat → BranchCall} {taskCount : Nat}
    (branch : ∃ index < taskCount, Branch replay (fun index => (calls index).task H) world final index target)
    (stranded : Stranded final target) : ∃ index < taskCount, (calls index).Refusable replay := by
  obtain ⟨index, inside, started, -, answer, onward⟩ := branch
  obtain ⟨target', own, -, handed, cause, -⟩ := (calls index).answers _ answer
  cases own
  exact ⟨index, inside, cause (stranded.before handed onward)⟩

/-- A replay that is fed until nothing is due is a rest of a replay, and its queue is empty. -/
theorem settle_evolves (fuel : Nat) (result : PromiseId) (tagged : Tagged world) (settled : settle replay fuel world = some final) :
    ∃ log, Evolves replay result world log final ∧ final.jobs = [] := by
  obtain ⟨quiet, drained, feeds⟩ := settle_parts replay fuel world final settled
  have preserves := (replay_tagged (H := H) replay).preserves
  obtain ⟨log, evolves⟩ := drain_evolves fuel result drained .refl
  have tagged' := preserves.drain fuel _ _ drained tagged
  have empty := drain_jobs _ fuel _ _ drained
  clear drained settled
  revert evolves
  generalize [] ++ log = log'
  intro evolves
  induction feeds generalizing log' with
  | done quiet _ => exact ⟨log', evolves, empty⟩
  | next quiet quiet' final place fuel' due drained rest ih =>
    obtain ⟨more, evolves'⟩ := drain_evolves fuel' result drained (evolves.grows (Grows.release tagged') fun _ _ owned => owned.release _)
    exact ih (preserves.drain fuel' _ _ drained (tagged'.release place)) (drain_jobs _ fuel' _ _ drained) _ evolves'

end Branches

section Rounds

variable {H : Type} {replay : Replay} {world : ReplayWorld H} {calls : Nat → BranchCall} {taskCount : Nat}

/-- A call of `allSettled` that has settled left one outcome for each task, or it rejected in a troubled round with what a task
threw. -/
theorem Follows.outcomes {limits : ParallelMode × Nat} {troubled : Prop} {first : ReplayWorld H} {result : PromiseId}
    {branches started : List PromiseId}
    (follows : Follows replay (fun index => (calls index).task H) taskCount limits (Fresh first) troubled first result branches
      started world) (fresh : Fresh first) (mode : limits.1 = .allSettled) (positive : 1 ≤ limits.2) (quiet : world.jobs = [])
    (settled : IsSettled world result) :
    (∃ values : List JsValue, values.length = taskCount ∧ SettledAs world result (.ok (.array values))) ∨
      troubled ∧ ∃ index < taskCount, ∃ before thrown, (run (replayHost H replay) ((calls index).task H) before).2 = .error thrown ∧
        SettledAs world result (.error thrown) := by
  have unsettled {limit : Nat} (owned : Fresh first → Owned result limit world) : False := by
    obtain ⟨promise, outcome, held, status⟩ := settled
    obtain ⟨promise', reactions, held', -, pending⟩ := (owned fresh).pending
    cases held.symm.trans held'
    rw [status] at pending
    cases pending
  cases follows with
  | chosen _ _ _ _ _ _ _ owned => exact (unsettled owned).elim
  | ended _ _ _ _ _ _ _ _ _ _ owned => exact (unsettled owned).elim
  | waits _ _ _ _ _ _ _ _ _ _ _ _ owned => exact (unsettled owned).elim
  | stuck _ _ _ _ _ _ owned => exact (unsettled owned).elim
  | settled outcome ended known begun _ _ own =>
    have ends := own fresh
    cases ended with
    | refused error nothing => omega
    | threw error index inside before stops trouble =>
      rcases stops with threw | ⟨value, answer, other⟩
      · exact .inr ⟨trouble, index, inside, before, error, threw, ends⟩
      · obtain ⟨target, same, -⟩ := (calls index).answers value answer
        exact absurd same (other target)
    | rejected error state index target all loop failed least =>
      have own := (congrArg Prod.fst loop.ownLimits).trans mode
      rw [all] at own
      cases own
    | resolved state loop whole =>
      refine .inl ⟨_, ?_, ends⟩
      rw [List.length_map, List.length_range, loop.ownCount]

/-- The context settled no task of a call at once, by what was called or by what it answered. -/
def Unrefused (replay : Replay) (calls : Nat → BranchCall) (taskCount : Nat) (branches : List PromiseId) (final : ReplayWorld H) :
    Prop :=
  (∀ index < taskCount, ¬ (calls index).Refusable replay) ∨ ∀ target ∈ branches, ¬ Stranded final target

theorem Unrefused.settles {final : ReplayWorld H} {branches : List PromiseId} {helper : Prop}
    (unrefused : Unrefused replay calls taskCount branches final) (settled : ∀ target ∈ branches, IsSettled final target)
    (either : helper ∨ ∃ target ∈ branches,
      (∃ index < taskCount, Branch replay (fun index => (calls index).task H) world final index target) ∧
        (Pending final target ∨ Stranded final target)) : helper := by
  rcases either with helper | ⟨target, listed, branch, pending | stranded⟩
  · exact helper
  · exact absurd pending (settled target listed).not_pending
  · obtain ⟨index, inside, refusable⟩ := stranded_refusable branch stranded
    rcases unrefused with calls | answers
    · exact absurd refusable (calls index inside)
    · exact absurd stranded (answers target listed)

/-- The parallel helpers settle with their branches. `all` and `allSettled` do where the context settled none of the tasks at
once, and `select` where a branch ends in the history. `allSettled` resolves with one outcome for each task where every task that it
starts returns its promise, and it rejects only with what a task threw. -/
theorem parallelHelpers_settle (replay : Replay) (calls : Nat → BranchCall) (taskCount : Nat) (concurrency : Option JsNumber)
    (world final : ReplayWorld H) (log : List PromiseId) (quiet : final.jobs = []) :
    let tasks := fun index => (calls index).task H
    let runTask := fun index => run (replayHost H replay) (tasks index)
    let settling := runParallel runTask tasks taskCount concurrency .allSettled world
    let settlingBranches := firstBranches replay tasks taskCount concurrency .allSettled world ++ log
    let allBranches := firstBranches replay tasks taskCount concurrency .all (world.alloc ⟨.derived, default, .pending []⟩).2 ++ log
    (Evolves replay settling.1 settling.2 log final → Unrefused replay calls taskCount settlingBranches final →
      (∀ target ∈ settlingBranches, IsSettled final target) → IsSettled final settling.1) ∧
    (∀ limit, validateConcurrency concurrency taskCount = .ok limit → Fresh world →
      Unrefused replay calls taskCount settlingBranches final → (∀ target ∈ settlingBranches, IsSettled final target) →
      (¬ FirstThrows replay tasks taskCount concurrency .allSettled world → Untroubled replay settling.1 settling.2 log final →
        ∃ values : List JsValue, values.length = taskCount ∧ SettledAs final settling.1 (.ok (.array values))) ∧
      (Evolves replay settling.1 settling.2 log final →
        (∃ values : List JsValue, values.length = taskCount ∧ SettledAs final settling.1 (.ok (.array values))) ∨
          ∃ index < taskCount, ∃ before thrown, (runTask index before).2 = .error thrown ∧
            SettledAs final settling.1 (.error thrown))) ∧
    (Evolves replay (allOutcomes replay tasks taskCount concurrency world).1 (all runTask tasks taskCount concurrency world).1 log
        final → Unrefused replay calls taskCount allBranches final → (∀ target ∈ allBranches, IsSettled final target) →
      ∃ result, (all runTask tasks taskCount concurrency world).2 = .ok (.promise result) ∧ IsSettled final result) ∧
    ∀ (branches : List PromiseId) (target source : PromiseId), target ∈ branches →
      (world.tagOf target).bind WaitTag.completionPosition ≠ none → Evolves replay source (select branches world).1 log final →
      (∀ branch ∈ branches, IsSettled final branch) →
      ∃ result, (select branches world).2 = .ok (.promise result) ∧ IsSettled final result := by
  have good : ∀ index < taskCount, HandedTask replay ((calls index).task H) := fun index _ => (calls index).handed
  refine ⟨fun evolves unrefused settled => ?_, fun limit valid fresh unrefused settled => ?_,
    fun evolves unrefused settled => ?_, fun branches target source listed placed evolves settled => ?_⟩
  · exact unrefused.settles settled (runParallel_settles good concurrency .allSettled evolves quiet)
  · have positive : 1 ≤ (ParallelMode.allSettled, limitOf concurrency taskCount).2 := by
      rw [limitOf, valid]
      exact validateConcurrency_pos valid
    constructor
    · intro returns rest
      obtain ⟨begins, derived, started, follows⟩ :=
        runParallel_follows good concurrency .allSettled world False fun throws => absurd throws returns
      obtain ⟨more, follows⟩ := follows.untroubled good begins derived rest
      have ends := follows.outcomes fresh rfl positive quiet (unrefused.settles settled (follows.quiet quiet))
      exact ends.resolve_right fun trouble => trouble.1
    · intro evolves
      obtain ⟨begins, derived, started, follows⟩ := runParallel_follows good concurrency .allSettled world True fun _ => trivial
      obtain ⟨more, follows⟩ := follows.evolves good begins derived trivial evolves
      have ends := follows.outcomes fresh rfl positive quiet (unrefused.settles settled (follows.quiet quiet))
      exact ends.imp_right fun trouble => trouble.2
  · obtain ⟨result, answer, either⟩ := all_settles good concurrency evolves quiet
    exact ⟨result, answer, unrefused.settles settled either⟩
  · obtain ⟨result, answer, either⟩ := select_settles listed placed evolves quiet
    refine ⟨result, answer, either.resolve_right ?_⟩
    rintro ⟨branch, member, pending⟩
    exact (settled branch member).not_pending pending

end Rounds

section Closed

/-- A replay of a history without recorded commands. -/
def bareReplay (history : List WorkflowEvent) (maxChildren : Option Nat) : Replay :=
  ⟨history, ⟨fun _ => Instant.epoch, ⟨fun _ => .nan, fun _ => ""⟩, none, maxChildren, none, none⟩⟩

def bareWorld (history : List WorkflowEvent) : ReplayWorld Unit := ⟨(), [], [], initialReplayState Unit history⟩

/-- One task of a helper that waits for a signal. -/
def signalTask (_ : Nat) : WorkflowCode Unit := (BranchCall.waitForSignal "go").task Unit

/-- `allSettled` over that task in a run that was asked to cancel. -/
def cancelledSettling : PromiseId × ReplayWorld Unit :=
  runParallel (fun index => run (replayHost Unit (bareReplay [.cancelRequested none] none)) (signalTask index)) signalTask 1 none
    .allSettled (bareWorld [.cancelRequested none])

def cancelledBranches : List PromiseId :=
  firstBranches (bareReplay [.cancelRequested none] none) signalTask 1 none .allSettled (bareWorld [.cancelRequested none])

/-- A selection of that wait in the same run. -/
def cancelledSelection : ReplayWorld Unit × Except JsValue JsValue :=
  select [0] (run (replayHost Unit (bareReplay [.cancelRequested none] none)) (signalTask 0) (bareWorld [.cancelRequested none])).1

/-- `allSettled` over a child that the limit refuses. -/
def limitedSettling : PromiseId × ReplayWorld Unit :=
  runParallel (fun _ => run (replayHost Unit (bareReplay [] (some 0))) ((BranchCall.child "order" .undefined ⟨none, none, none⟩).task Unit))
    (fun _ => (BranchCall.child "order" .undefined ⟨none, none, none⟩).task Unit) 1 none .allSettled (bareWorld [])

/-- The wait is rejected, and the helper stays pending; the limit rejects `allSettled`. -/
theorem parallelHelpers_hang :
    (¬ ∀ log final, Evolves (bareReplay [.cancelRequested none] none) cancelledSettling.1 cancelledSettling.2 log final →
      final.jobs = [] → (∀ target ∈ cancelledBranches ++ log, IsSettled final target) → IsSettled final cancelledSettling.1) ∧
    (¬ ∀ log final, Evolves (bareReplay [.cancelRequested none] none) 0 cancelledSelection.1 log final → final.jobs = [] →
      (∀ target ∈ [0], IsSettled final target) → ∃ result, cancelledSelection.2 = .ok (.promise result) ∧ IsSettled final result) ∧
    ¬ ∀ log final, Evolves (bareReplay [] (some 0)) limitedSettling.1 limitedSettling.2 log final → final.jobs = [] →
      ∃ (promise : ReplayPromise Unit) (values : List JsValue), final.promises[limitedSettling.1]? = some promise ∧
        promise.status = .settled (.ok (.array values)) := by
  refine ⟨fun settles => ?_, fun settles => ?_, fun resolves => ?_⟩
  · have queued : cancelledSettling.2.jobs = [.host (.chosen ⟨0, .allSettled, 1, signalTask, 1, 1, 0, [(0, 1)], []⟩)
      (.ok .undefined)] := rfl
    obtain ⟨promise, outcome, held, status⟩ := settles _ _ (.performs .refl queued) rfl fun target listed => by
      cases List.mem_singleton.mp listed
      exact ⟨_, _, rfl, rfl⟩
    cases held
    cases status
  · obtain ⟨result, answer, promise, outcome, held, status⟩ := settles _ _ .refl rfl fun target listed => by
      cases List.mem_singleton.mp listed
      exact ⟨_, _, rfl, rfl⟩
    cases answer
    cases held
    cases status
  · obtain ⟨promise, values, held, status⟩ := resolves _ _ .refl rfl
    cases held
    cases status

/-- A history that holds the signal and was fed up to it. -/
def signalledWorld : ReplayWorld Unit :=
  update (fun state => { state with fedUpTo := 0 }) (bareWorld [.signalReceived "go" .undefined])

def signalledSettling : PromiseId × ReplayWorld Unit :=
  runParallel (fun index => run (replayHost Unit (bareReplay [.signalReceived "go" .undefined] none)) (signalTask index)) signalTask 1
    none .allSettled signalledWorld

/-- The signal ends the wait, and `allSettled` resolves. -/
theorem parallelHelpers_settle_signal :
    ∃ log final, Untroubled (bareReplay [.signalReceived "go" .undefined] none) signalledSettling.1 signalledSettling.2 log final ∧
      final.jobs = [] ∧ IsSettled final signalledSettling.1 ∧
        ∃ values : List JsValue, values.length = 1 ∧ SettledAs final signalledSettling.1 (.ok (.array values)) := by
  have queued : signalledSettling.2.jobs = [.host (.chosen ⟨0, .allSettled, 1, signalTask, 1, 1, 0, [(0, 1)], []⟩)
    (.ok .undefined)] := rfl
  have begins : Untroubled (bareReplay [.signalReceived "go" .undefined] none) signalledSettling.1 signalledSettling.2 []
    signalledSettling.2 := .refl
  have chosen := begins.performs queued fun throws => by
    obtain ⟨state, index, outcome, same, -⟩ := throws
    cases same
  have ended := chosen.performs rfl fun throws => by
    obtain ⟨state, index, outcome, same, -, -, thrown, stops⟩ := throws
    cases same
    cases stops
  obtain ⟨log, final, rest, quiet, settled⟩ : ∃ log final, Untroubled (bareReplay [.signalReceived "go" .undefined] none)
      signalledSettling.1 signalledSettling.2 log final ∧ final.jobs = [] ∧ ∀ target ∈ firstBranches
        (bareReplay [.signalReceived "go" .undefined] none) signalTask 1 none .allSettled signalledWorld ++ log,
          IsSettled final target := by
    refine ⟨_, _, ended, rfl, fun target listed => ?_⟩
    cases List.mem_singleton.mp listed
    exact ⟨_, _, rfl, rfl⟩
  have settles := parallelHelpers_settle (bareReplay [.signalReceived "go" .undefined] none) (fun _ => .waitForSignal "go") 1 none
    signalledWorld final log quiet
  have accepted : ∀ index < 1, ¬ (BranchCall.waitForSignal "go").Refusable (bareReplay [.signalReceived "go" .undefined] none) :=
    fun _ _ refusable => Bool.false_ne_true refusable
  refine ⟨log, final, rest, quiet, settles.1 rest.evolves (.inl accepted) settled,
    (settles.2.1 1 rfl (fun _ _ => rfl) (.inl accepted) settled).1 ?_ rest⟩
  rintro ⟨limit, valid, thrown, stops⟩
  cases valid
  cases stops

end Closed

end DurableExecution.Workflow

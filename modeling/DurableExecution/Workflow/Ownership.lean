import Mathlib.Algebra.GroupWithZero.Nat
import DurableExecution.Workflow.Growth

/-
This file shows that a promise of the engine is settled by the function that it belongs to. At any
time at most one job or reaction goes on with that function, and nothing else settles the promise.
-/

namespace DurableExecution.Workflow

open EventLoop

section Counting

variable {H : Type} {world : ReplayWorld H} {counts : Resumption H → Bool} {target : PromiseId}

def jobIs (counts : Resumption H → Bool) : ReplayJob H → Bool
  | .host resume _ => counts resume
  | .code _ => false

def reactionIs (counts : Resumption H → Bool) : Reaction H (Operation H) JsValue (Resumption H) → Bool
  | .host resume => counts resume
  | .code _ => false

/-- How many reactions of the promise are counted. -/
def promiseCount (counts : Resumption H → Bool) (promise : ReplayPromise H) : Nat :=
  match promise.status with
  | .pending reactions => reactions.countP (reactionIs counts)
  | .settled _ => 0

/-- How many jobs and reactions go on with a function that is counted. -/
def goingOn (counts : Resumption H → Bool) (world : ReplayWorld H) : Nat :=
  world.jobs.countP (jobIs counts) + (world.promises.map (promiseCount counts)).sum

theorem sum_set {A : Type} (f : A → Nat) {entries : List A} {index : Nat} {old : A} (held : entries[index]? = some old) (new : A) :
    ((entries.set index new).map f).sum + f old = (entries.map f).sum + f new := by
  induction entries generalizing index with
  | nil => cases held
  | cons one rest ih =>
    cases index with
    | zero =>
      cases held
      simp only [List.set_cons_zero, List.map_cons, List.sum_cons]
      omega
    | succ index =>
      have tail := ih held
      simp only [List.set_cons_succ, List.map_cons, List.sum_cons]
      omega

theorem reactionIs_job (outcome : Except JsValue JsValue) (reactions : List (Reaction H (Operation H) JsValue (Resumption H))) :
    (reactions.map fun reaction => reaction.job outcome).countP (jobIs counts) = reactions.countP (reactionIs counts) := by
  rw [List.countP_map]
  refine List.countP_congr fun reaction _ => ?_
  cases reaction <;> rfl

theorem goingOn_alloc {promise : ReplayPromise H} (host : ReplayState H) (plain : promiseCount counts promise = 0) :
    goingOn counts (⟨world.heap, world.promises ++ [promise], world.jobs, host⟩ : ReplayWorld H) = goingOn counts world := by
  unfold goingOn
  simp only [List.map_append, List.map_cons, List.map_nil, List.sum_append, List.sum_cons, List.sum_nil, plain]
  omega

theorem goingOn_replaced {old : ReplayPromise H} {status : Status H (Operation H) JsValue (Resumption H)} {jobs : List (ReplayJob H)}
    (held : world.promises[target]? = some old)
    (same : jobs.countP (jobIs counts) + promiseCount counts (old.withStatus status) =
      world.jobs.countP (jobIs counts) + promiseCount counts old) :
    goingOn counts { world with promises := world.promises.set target (old.withStatus status), jobs := jobs } =
      goingOn counts world := by
  have total := sum_set (promiseCount counts) held (old.withStatus status)
  unfold goingOn
  dsimp only
  omega

/-- What is settled releases as many jobs as it had reactions. -/
theorem goingOn_settle (owner : Owner) (target : PromiseId) (outcome : Except JsValue JsValue) :
    goingOn counts (world.settle owner target outcome) = goingOn counts world := by
  unfold World.settle
  split
  · next promise held =>
      split
      · next reactions status =>
          split
          · refine goingOn_replaced held ?_
            rw [List.countP_append, reactionIs_job, promiseCount, promiseCount, status]
            rfl
          · rfl
      · rfl
  · rfl

theorem goingOn_react (target : PromiseId) {reaction : Reaction H (Operation H) JsValue (Resumption H)}
    (plain : reactionIs counts reaction = false) : goingOn counts (world.react target reaction) = goingOn counts world := by
  unfold World.react
  split
  · next promise held =>
      split
      · next reactions status =>
          refine goingOn_replaced held ?_
          rw [promiseCount, promiseCount, status]
          change _ + (reactions ++ [reaction]).countP (reactionIs counts) = _
          rw [List.countP_append, List.countP_cons_of_neg (by rw [plain]; exact Bool.false_ne_true), List.countP_nil]
          rfl
      · next outcome status =>
          have plain' : jobIs counts (reaction.job outcome) = false := by
            cases reaction <;> exact plain
          unfold goingOn
          dsimp only
          rw [List.countP_append, List.countP_cons_of_neg (by rw [plain']; exact Bool.false_ne_true), List.countP_nil]
          rfl
  · rfl

theorem goingOn_enqueue {job : ReplayJob H} (plain : jobIs counts job = false) :
    goingOn counts (world.enqueue job) = goingOn counts world := by
  unfold goingOn
  dsimp only [World.enqueue]
  rw [List.countP_append, List.countP_cons_of_neg (by rw [plain]; exact Bool.false_ne_true), List.countP_nil]
  rfl

theorem goingOn_completedAt (place : Nat) (outcome : Except JsValue JsValue) :
    goingOn counts (completedAt place outcome world).1 = goingOn counts world := by
  unfold completedAt
  dsimp only
  split
  · exact goingOn_alloc world.host rfl
  · have waiting : goingOn counts (world.alloc ⟨.host, ⟨some place, false⟩, .pending []⟩).2 = goingOn counts world :=
      goingOn_alloc world.host rfl
    exact waiting

theorem promiseCount_idle {promise : ReplayPromise H}
    (idle : ∀ reaction reactions, promise.status ≠ .pending (reaction :: reactions)) : promiseCount counts promise = 0 := by
  unfold promiseCount
  split
  · next reactions status =>
      cases reactions with
      | nil => rfl
      | cons reaction rest => exact absurd status (idle reaction rest)
  · rfl

theorem goingOn_popped {job : ReplayJob H} {jobs : List (ReplayJob H)} (queued : world.jobs = job :: jobs)
    (counts : Resumption H → Bool) :
    goingOn counts world = goingOn counts { world with jobs := jobs } + if jobIs counts job then 1 else 0 := by
  unfold goingOn
  rw [queued, List.countP_cons]
  dsimp only
  omega

end Counting

section Holders

variable {H : Type} {world : ReplayWorld H} {result target : PromiseId} {limit : Nat}

def Resumption.settles (result : PromiseId) : Resumption H → Bool
  | .chosen state | .taskSettled state _ => decide (state.result = result)
  | .allDone own | .selected own _ => decide (own = result)
  | .handlerSettled | .compensated _ => false

def jobSettles (result : PromiseId) : ReplayJob H → Bool
  | .host resume _ => resume.settles result
  | .code _ => false

def reactionSettles (result : PromiseId) : Reaction H (Operation H) JsValue (Resumption H) → Bool
  | .host resume => resume.settles result
  | .code _ => false

/-- How many reactions of the promise go on with the function of `result`. -/
def promiseHolders (result : PromiseId) (promise : ReplayPromise H) : Nat :=
  match promise.status with
  | .pending reactions => reactions.countP (reactionSettles result)
  | .settled _ => 0

def holders (result : PromiseId) (world : ReplayWorld H) : Nat :=
  world.jobs.countP (jobSettles result) + (world.promises.map (promiseHolders result)).sum

/-- The promise is pending, and so many jobs and reactions may go on with its function. -/
structure Owned (result : PromiseId) (limit : Nat) (world : ReplayWorld H) : Prop where
  pending : ∃ (promise : ReplayPromise H) (reactions : _), world.promises[result]? = some promise ∧ promise.owner = .derived ∧
    promise.status = .pending reactions
  alone : holders result world ≤ limit

theorem Resumption.settles_free {resume : Resumption H} (free : resume.Free fun other => other ≠ result) :
    resume.settles result = false := by
  cases resume <;> first | rfl | exact decide_eq_false free

theorem holders_alloc {promise : ReplayPromise H} (host : ReplayState H) (plain : promiseHolders result promise = 0) :
    holders result (⟨world.heap, world.promises ++ [promise], world.jobs, host⟩ : ReplayWorld H) = holders result world :=
  goingOn_alloc host plain

/-- What is settled releases as many jobs as it had reactions. -/
theorem holders_settle (owner : Owner) (target : PromiseId) (outcome : Except JsValue JsValue) :
    holders result (world.settle owner target outcome) = holders result world := goingOn_settle owner target outcome

theorem holders_react (target : PromiseId) {reaction : Reaction H (Operation H) JsValue (Resumption H)}
    (plain : reactionSettles result reaction = false) : holders result (world.react target reaction) = holders result world :=
  goingOn_react target plain

theorem holders_enqueue {job : ReplayJob H} (plain : jobSettles result job = false) :
    holders result (world.enqueue job) = holders result world := goingOn_enqueue plain

theorem holders_completedAt (place : Nat) (outcome : Except JsValue JsValue) :
    holders result (completedAt place outcome world).1 = holders result world := goingOn_completedAt place outcome

theorem Owned.alloc {promise : ReplayPromise H} (owned : Owned result limit world) (host : ReplayState H)
    (plain : promiseHolders result promise = 0) :
    Owned result limit (⟨world.heap, world.promises ++ [promise], world.jobs, host⟩ : ReplayWorld H) := by
  obtain ⟨⟨own, reactions, held, owner, status⟩, alone⟩ := owned
  have inside := (List.getElem?_eq_some_iff.mp held).1
  refine ⟨⟨own, reactions, by rw [List.getElem?_append_left inside]; exact held, owner, status⟩, ?_⟩
  rw [holders_alloc host plain]
  exact alone

/-- Somebody settles another promise. -/
theorem Owned.settle (owned : Owned result limit world) (owner : Owner) (target : PromiseId) (outcome : Except JsValue JsValue)
    (free : owner = .derived → target ≠ result) : Owned result limit (world.settle owner target outcome) := by
  refine ⟨?_, (holders_settle owner target outcome).le.trans owned.alone⟩
  obtain ⟨⟨own, reactions, held, derived, status⟩, -⟩ := owned
  unfold World.settle
  split
  · next promise found =>
      split
      · split
        · next same =>
            by_cases equal : target = result
            · subst equal
              cases held.symm.trans found
              exact absurd rfl (free (same.symm.trans derived))
            · exact ⟨own, reactions, by rw [List.getElem?_set_ne equal]; exact held, derived, status⟩
        · exact ⟨own, reactions, held, derived, status⟩
      · exact ⟨own, reactions, held, derived, status⟩
  · exact ⟨own, reactions, held, derived, status⟩

/-- A pending promise is still pending with one more reaction. -/
theorem Owned.reacted (owned : Owned result limit world) (target : PromiseId) (reaction : Reaction H (Operation H) JsValue (Resumption H)) :
    ∃ (promise : ReplayPromise H) (reactions : _), (world.react target reaction).promises[result]? = some promise ∧
      promise.owner = .derived ∧ promise.status = .pending reactions := by
  obtain ⟨⟨own, reactions, held, derived, status⟩, -⟩ := owned
  unfold World.react
  split
  · next promise found =>
      have inside : target < world.promises.length := (List.getElem?_eq_some_iff.mp found).1
      split
      · by_cases equal : target = result
        · subst equal
          cases held.symm.trans found
          exact ⟨_, _, List.getElem?_set_self inside, derived, rfl⟩
        · exact ⟨own, reactions, by dsimp only; rw [List.getElem?_set_ne equal]; exact held, derived, status⟩
      · exact ⟨own, reactions, held, derived, status⟩
  · exact ⟨own, reactions, held, derived, status⟩

/-- What does not go on with the function leaves its promise alone. -/
theorem Owned.isKept (result : PromiseId) (limit : Nat) : Kept (fun other => other ≠ result) (Owned (H := H) result limit) where
  same {world after} owned promises jobs _ _ := by
    obtain ⟨pending, alone⟩ := owned
    refine ⟨by rw [promises]; exact pending, ?_⟩
    unfold holders at alone ⊢
    rw [promises, jobs]
    exact alone
  unplaced {world} promise _ plain owned := by
    refine owned.alloc world.host ?_
    unfold promiseHolders
    split
    · next reactions status =>
        cases reactions with
        | nil => rfl
        | cons reaction rest => exact absurd status (plain reaction rest)
    · rfl
  placed {world} place outcome owned := by
    unfold completedAt
    dsimp only
    split
    · exact owned.alloc world.host rfl
    · exact owned.alloc _ rfl
  settle owner target outcome _ free owned := owned.settle owner target outcome free
  react {world} target reaction free owned := by
    have plain : reactionSettles result reaction = false := by
      cases reaction with
      | code next => rfl
      | host resume => exact Resumption.settles_free (free resume rfl)
    exact ⟨owned.reacted target reaction, (holders_react target plain).le.trans owned.alone⟩
  enqueue {world} job free owned := by
    have plain : jobSettles result job = false := by
      cases job with
      | code body => rfl
      | host resume outcome => exact Resumption.settles_free (free resume outcome rfl)
    exact ⟨owned.pending, (holders_enqueue plain).le.trans owned.alone⟩
  opens {world after} owned goesOn _ := by
    refine goesOn fun same => ?_
    obtain ⟨⟨promise, _, held, _, _⟩, _⟩ := owned
    have inside := (List.getElem?_eq_some_iff.mp held).1
    rw [same] at inside
    exact Nat.lt_irrefl _ inside

/-- A release settles waits of the context alone. -/
theorem Owned.release (owned : Owned result limit world) (place : Nat) : Owned result limit (release place world) := by
  unfold Workflow.release
  dsimp only
  have fed : Owned result limit (update (fun state => { state with
      fedUpTo := place
      deliveries := state.deliveries.filter fun delivery => delivery.1 != place }) world) := ⟨owned.pending, owned.alone⟩
  revert fed
  generalize update (fun state => { state with
    fedUpTo := place
    deliveries := state.deliveries.filter fun delivery => delivery.1 != place }) world = start
  generalize (world.host.deliveries.filter fun delivery => delivery.1 == place) = due
  intro fed
  induction due generalizing start with
  | nil => exact fed
  | cons delivery rest ih => exact ih _ (fed.settle .host _ _ fun same => nomatch same)

/-- The oldest job leaves the queue. -/
theorem Owned.pop {job : ReplayJob H} {rest : List (ReplayJob H)} (owned : Owned result limit world) (queued : world.jobs = job :: rest) :
    Owned result (limit - if jobSettles result job then 1 else 0) { world with jobs := rest } := by
  obtain ⟨pending, alone⟩ := owned
  refine ⟨pending, ?_⟩
  unfold holders at alone ⊢
  rw [queued, List.countP_cons] at alone
  dsimp only
  omega

theorem Owned.popOwn {job : ReplayJob H} {rest : List (ReplayJob H)} (owned : Owned result 1 world) (queued : world.jobs = job :: rest)
    (own : jobSettles result job = true) : Owned result 0 { world with jobs := rest } := by
  have popped := owned.pop queued
  rwa [if_pos own] at popped

theorem Owned.popOther {job : ReplayJob H} {rest : List (ReplayJob H)} (owned : Owned result limit world)
    (queued : world.jobs = job :: rest) (other : jobSettles result job = false) : Owned result limit { world with jobs := rest } := by
  have popped := owned.pop queued
  rwa [other, if_neg Bool.false_ne_true] at popped

theorem Owned.react (owned : Owned result 0 world) (target : PromiseId) (resume : Resumption H) :
    Owned result 1 (world.react target (.host resume)) := by
  have one : (([.host resume] : List (Reaction H (Operation H) JsValue (Resumption H))).countP (reactionSettles result)) ≤ 1 :=
    List.countP_le_length
  refine ⟨owned.reacted target (.host resume), ?_⟩
  have alone := owned.alone
  unfold World.react
  split
  · next promise held =>
      split
      · next reactions status =>
          have total := sum_set (promiseHolders result) held (promise.withStatus (.pending (reactions ++ [.host resume])))
          have before : promiseHolders result promise = reactions.countP (reactionSettles result) := by rw [promiseHolders, status]
          have after : promiseHolders result (promise.withStatus (.pending (reactions ++ [.host resume]))) =
              (reactions ++ [Reaction.host resume]).countP (reactionSettles result) := rfl
          rw [List.countP_append] at after
          unfold holders at alone ⊢
          dsimp only
          omega
      · next outcome status =>
          have job : ([(Reaction.host resume).job outcome] : List (ReplayJob H)).countP (jobSettles result) ≤ 1 := List.countP_le_length
          unfold holders at alone ⊢
          dsimp only
          rw [List.countP_append]
          omega
  · exact Nat.le_succ_of_le alone

theorem Owned.enqueue (owned : Owned result 0 world) (job : ReplayJob H) : Owned result 1 (world.enqueue job) := by
  refine ⟨owned.pending, ?_⟩
  have one : [job].countP (jobSettles result) ≤ 1 := List.countP_le_length
  have alone := owned.alone
  unfold holders at alone ⊢
  dsimp only [World.enqueue]
  rw [List.countP_append]
  omega

/-- A job that is not the one that goes on with the function leaves its promise alone. -/
theorem Owned.other {job held : ReplayJob H} {rest : List (ReplayJob H)} (owned : Owned result 1 world) (queued : world.jobs = job :: rest)
    (member : held ∈ rest) (own : jobSettles result held = true) : jobSettles result job = false := by
  have alone := owned.alone
  have positive : 0 < rest.countP (jobSettles result) := List.countP_pos_iff.mpr ⟨held, member, own⟩
  unfold holders at alone
  rw [queued, List.countP_cons] at alone
  cases settles : jobSettles result job with
  | false => rfl
  | true =>
    rw [settles, if_pos rfl] at alone
    omega

/-- Nor does a job while a reaction goes on with the function. -/
theorem Owned.waiting {job : ReplayJob H} {rest : List (ReplayJob H)} {promise : ReplayPromise H}
    {reactions : List (Reaction H (Operation H) JsValue (Resumption H))} {resume : Resumption H} (owned : Owned result 1 world)
    (queued : world.jobs = job :: rest) (held : world.promises[target]? = some promise) (pending : promise.status = .pending reactions)
    (registered : .host resume ∈ reactions) (own : resume.settles result = true) : jobSettles result job = false := by
  have alone := owned.alone
  have positive : 0 < reactions.countP (reactionSettles result) := List.countP_pos_iff.mpr ⟨_, registered, own⟩
  have total := sum_set (promiseHolders result) held (promise.withStatus (.settled (.ok .undefined)))
  have none' : promiseHolders result (promise.withStatus (.settled (.ok .undefined))) = 0 := rfl
  have holds : promiseHolders result promise = reactions.countP (reactionSettles result) := by rw [promiseHolders, pending]
  unfold holders at alone
  rw [queued, List.countP_cons] at alone
  cases settles : jobSettles result job with
  | false => rfl
  | true =>
    rw [settles, if_pos rfl] at alone
    omega

theorem Owned.none {job : ReplayJob H} {rest : List (ReplayJob H)} (owned : Owned result 0 world) (queued : world.jobs = job :: rest) :
    jobSettles result job = false := by
  have alone := owned.alone
  unfold holders at alone
  rw [queued, List.countP_cons] at alone
  cases settles : jobSettles result job with
  | false => rfl
  | true =>
    rw [settles, if_pos rfl] at alone
    omega

theorem jobSettles_free {job : ReplayJob H} (settles : jobSettles result job = false) (resume : Resumption H)
    (outcome : Except JsValue JsValue) (same : job = .host resume outcome) : resume.Free fun other => other ≠ result := by
  cases same
  cases resume <;> first | trivial | exact of_decide_eq_false settles

/-- Nobody knows a promise that is not made yet. -/
def Fresh (world : ReplayWorld H) : Prop := ∀ result, world.promises.length ≤ result → holders result world = 0

theorem Fresh.alloc {promise : ReplayPromise H} (fresh : Fresh world) (plain : ∀ result, promiseHolders result promise = 0) :
    Fresh (world.alloc promise).2 := by
  intro result beyond
  simp only [World.alloc, List.length_append, List.length_singleton] at beyond
  have before := fresh result (by omega)
  unfold holders at before ⊢
  simp only [World.alloc, List.map_append, List.map_cons, List.map_nil, List.sum_append, List.sum_cons, List.sum_nil, plain]
  omega

/-- A promise that an asynchronous function has just made is its own. -/
theorem Fresh.owned (fresh : Fresh world) : Owned world.promises.length 0 (world.alloc ⟨.derived, (default : WaitTag), .pending []⟩).2 := by
  refine ⟨⟨_, [], List.getElem?_concat_length, rfl, rfl⟩, ?_⟩
  have before := fresh world.promises.length (Nat.le_refl _)
  have plain : promiseHolders world.promises.length (⟨.derived, (default : WaitTag), .pending []⟩ : ReplayPromise H) = 0 := rfl
  unfold holders at before ⊢
  simp only [World.alloc, List.map_append, List.map_cons, List.map_nil, List.sum_append, List.sum_cons, List.sum_nil, plain]
  omega

/-- Nothing goes on with a promise that does not exist yet. -/
def Unheld (result : PromiseId) (world : ReplayWorld H) : Prop := world.promises.length ≤ result → holders result world = 0

theorem Unheld.later {after : ReplayWorld H} (unheld : Unheld result world) (longer : world.promises.length ≤ after.promises.length)
    (same : holders result after = holders result world) : Unheld result after :=
  fun beyond => same.trans (unheld (longer.trans beyond))

theorem Unheld.isKept (result : PromiseId) : Kept (fun other => other ≠ result) (Unheld (H := H) result) where
  same {world after} unheld promises jobs _ _ := by
    refine unheld.later (Nat.le_of_eq (by rw [promises])) ?_
    unfold holders
    rw [promises, jobs]
  unplaced {world} promise _ plain unheld := by
    refine unheld.later ((longer_isKept _).unplaced promise ‹_› plain (Nat.le_refl _)) (holders_alloc _ ?_)
    unfold promiseHolders
    split
    · next reactions status =>
        cases reactions with
        | nil => rfl
        | cons reaction rest => exact absurd status (plain reaction rest)
    · rfl
  placed {world} place outcome unheld :=
    unheld.later ((longer_isKept _).placed place outcome (Nat.le_refl _)) (holders_completedAt place outcome)
  settle owner target outcome _ _ unheld :=
    unheld.later (promises_longer (World.settle_undisturbed _ _ _ _).tags) (holders_settle owner target outcome)
  react target reaction free unheld := by
    refine unheld.later (promises_longer (World.react_undisturbed _ _ _).tags) (holders_react target ?_)
    cases reaction with
    | code next => rfl
    | host resume => exact Resumption.settles_free (free resume rfl)
  enqueue job free unheld := by
    refine unheld.later (Nat.le_refl _) (holders_enqueue ?_)
    cases job with
    | code body => rfl
    | host resume outcome => exact Resumption.settles_free (free resume outcome rfl)
  opens {world after} unheld goesOn longer := by
    by_cases same : world.promises.length = result
    · intro beyond
      omega
    · exact goesOn same

theorem Fresh.run (fresh : Fresh world) (replay : Replay) (code : WorkflowCode H) :
    Fresh (EventLoop.run (replayHost H replay) code world).1 :=
  fun result => (Unheld.isKept result).byCode.run replay code (fresh result)

theorem Fresh.perform {job : ReplayJob H} {rest : List (ReplayJob H)} (fresh : Fresh world) (replay : Replay)
    (queued : world.jobs = job :: rest) : Fresh (EventLoop.perform (replayHost H replay) job { world with jobs := rest }) := by
  intro result
  by_cases beyond : world.promises.length ≤ result
  · have before := fresh result beyond
    unfold holders at before
    rw [queued, List.countP_cons] at before
    refine (Unheld.isKept result).perform replay job (jobSettles_free ?_) fun _ => ?_
    · cases settles : jobSettles result job with
      | false => rfl
      | true =>
        rw [settles, if_pos rfl] at before
        omega
    · unfold holders
      dsimp only
      omega
  · intro late
    have longer := (replay_longer replay world.promises.length).preserves.perform job { world with jobs := rest } (Nat.le_refl _)
    exact absurd (longer.trans late) beyond

theorem Fresh.release (fresh : Fresh world) (place : Nat) : Fresh (release place world) := by
  intro result
  unfold Workflow.release
  dsimp only
  have fed : Unheld result (update (fun state => { state with
      fedUpTo := place
      deliveries := state.deliveries.filter fun delivery => delivery.1 != place }) world) := fresh result
  revert fed
  generalize update (fun state => { state with
    fedUpTo := place
    deliveries := state.deliveries.filter fun delivery => delivery.1 != place }) world = start
  generalize (world.host.deliveries.filter fun delivery => delivery.1 == place) = due
  intro fed
  induction due generalizing start with
  | nil => exact fed
  | cons delivery rest ih =>
    exact ih _ (fed.later (promises_longer (World.settle_undisturbed _ _ _ _).tags) (holders_settle .host _ _))

end Holders

end DurableExecution.Workflow

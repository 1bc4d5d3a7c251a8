import Mathlib.Data.List.Basic
import Mathlib.Data.List.Forall2
import Mathlib.Tactic.Common

/-
This file models a JavaScript event loop: promises, reactions and microtasks.
The code that runs on it is arbitrary and deterministic, and it talks to a host
through synchronous calls.
-/

namespace DurableExecution.EventLoop

/-- A promise is named by its place in the table of promises. -/
abbrev PromiseId := Nat

/-- This type is one synchronous piece of code up to its return.
`heap` is everything the code can mutate; a call hands the host its callbacks. -/
inductive Code (H O V : Type) where
  | finish (completion : Except V V)
  | read (next : H → Code H O V)
  | write (heap : H) (next : Code H O V)
  | promise (next : PromiseId → Code H O V)
  | settle (target : PromiseId) (outcome : Except V V) (next : Code H O V)
  | react (target : PromiseId) (reaction : Except V V → Code H O V) (next : Code H O V)
  | call (operation : O) (callbacks : Nat → Code H O V) (next : Except V V → Code H O V)

/-- A promise is settled only by the party that holds its resolving functions. -/
inductive Owner where
  | code
  | host
  | derived
  deriving DecidableEq

/-- A reaction runs code or resumes a suspended function of the host. -/
inductive Reaction (H O V R : Type) where
  | code (body : Except V V → Code H O V)
  | host (resume : R)

/-- A microtask. -/
inductive Job (H O V R : Type) where
  | code (body : Code H O V)
  | host (resume : R) (outcome : Except V V)

def Reaction.job {H O V R : Type} (outcome : Except V V) : Reaction H O V R → Job H O V R
  | .code body => .code (body outcome)
  | .host resume => .host resume outcome

inductive Status (H O V R : Type) where
  | pending (reactions : List (Reaction H O V R))
  | settled (outcome : Except V V)

/-- The host attaches a tag to each promise it hands out. -/
structure Promise (H O V R T : Type) where
  owner : Owner
  tag : T
  status : Status H O V R

structure World (H O V R T S : Type) where
  heap : H
  promises : List (Promise H O V R T)
  jobs : List (Job H O V R)
  host : S

section Operations

variable {H O V R T S : Type}

def Promise.Pending (promise : Promise H O V R T) : Prop :=
  ∃ reactions, promise.status = .pending reactions

def Promise.withStatus (promise : Promise H O V R T) (status : Status H O V R) :
    Promise H O V R T := { promise with status := status }

/-- A new promise gets the next free id. -/
def World.alloc (promise : Promise H O V R T) (world : World H O V R T S) :
    PromiseId × World H O V R T S :=
  (world.promises.length, { world with promises := world.promises ++ [promise] })

/-- Settling queues the reactions in the order they were registered.
It does nothing to a promise that is settled or belongs to someone else. -/
def World.settle (owner : Owner) (target : PromiseId) (outcome : Except V V)
    (world : World H O V R T S) : World H O V R T S :=
  match world.promises[target]? with
  | some promise =>
    match promise.status with
    | .pending reactions =>
      if promise.owner = owner then
        { world with
          promises := world.promises.set target (promise.withStatus (.settled outcome))
          jobs := world.jobs ++ reactions.map (Reaction.job outcome) }
      else world
    | .settled _ => world
  | none => world

/-- A reaction on a settled promise is queued at once. -/
def World.react (target : PromiseId) (reaction : Reaction H O V R)
    (world : World H O V R T S) : World H O V R T S :=
  match world.promises[target]? with
  | some promise =>
    match promise.status with
    | .pending reactions =>
      { world with
        promises := world.promises.set target
          (promise.withStatus (.pending (reactions ++ [reaction]))) }
    | .settled outcome => { world with jobs := world.jobs ++ [reaction.job outcome] }
  | none => world

/-- A microtask that the host queues itself. -/
def World.enqueue (job : Job H O V R) (world : World H O V R T S) : World H O V R T S :=
  { world with jobs := world.jobs ++ [job] }

def World.tagOf (world : World H O V R T S) (target : PromiseId) : Option T :=
  world.promises[target]?.map Promise.tag

end Operations

/-- A piece of code takes the world to the next one and returns or throws. -/
abbrev Effect (H O V R T S : Type) := World H O V R T S → World H O V R T S × Except V V

/-- The host answers calls and resumes its suspended functions.
`call` receives the effect of running each callback at once. -/
structure Host (H O V R T S : Type) where
  call : O → (Nat → Code H O V) → (Nat → Effect H O V R T S) → Effect H O V R T S
  resume : R → Except V V → (Code H O V → Effect H O V R T S) →
    World H O V R T S → World H O V R T S

section Execution

variable {H O V R T S : Type} [Inhabited T]

/-- This function runs a synchronous piece of code to its return. -/
def run (host : Host H O V R T S) : Code H O V → Effect H O V R T S
  | .finish completion, world => (world, completion)
  | .read next, world => run host (next world.heap) world
  | .write heap next, world => run host next { world with heap := heap }
  | .promise next, world =>
    let allocated := world.alloc ⟨.code, default, .pending []⟩
    run host (next allocated.1) allocated.2
  | .settle target outcome next, world => run host next (world.settle .code target outcome)
  | .react target reaction next, world => run host next (world.react target (.code reaction))
  | .call operation callbacks next, world =>
    let answer := host.call operation callbacks (fun index => run host (callbacks index)) world
    run host (next answer.2) answer.1

/-- A microtask runs to its end; what it returns or throws goes nowhere. -/
def perform (host : Host H O V R T S) : Job H O V R → World H O V R T S → World H O V R T S
  | .code body, world => (run host body world).1
  | .host resume outcome, world => host.resume resume outcome (run host) world

/-- This function runs microtasks, oldest first, until none is left. -/
def drain (host : Host H O V R T S) : Nat → World H O V R T S → Option (World H O V R T S)
  | 0, world => match world.jobs with
    | [] => some world
    | _ :: _ => none
  | fuel + 1, world => match world.jobs with
    | [] => some world
    | job :: rest => drain host fuel (perform host job { world with jobs := rest })

theorem drain_quiet (host : Host H O V R T S) (fuel : Nat) (world : World H O V R T S)
    (quiet : world.jobs = []) : drain host fuel world = some world := by
  cases fuel <;> simp only [drain, quiet]

theorem drain_step (host : Host H O V R T S) (fuel : Nat) (world : World H O V R T S)
    (job : Job H O V R) (rest : List (Job H O V R)) (queued : world.jobs = job :: rest) :
    drain host (fuel + 1) world = drain host fuel (perform host job { world with jobs := rest }) := by
  simp only [drain, queued]

/-- A drained world has no microtask left. -/
theorem drain_jobs (host : Host H O V R T S) (fuel : Nat) (world final : World H O V R T S)
    (drained : drain host fuel world = some final) : final.jobs = [] := by
  induction fuel generalizing world with
  | zero =>
    cases queued : world.jobs with
    | nil =>
      rw [drain_quiet host 0 world queued] at drained
      cases drained
      exact queued
    | cons job rest => simp [drain, queued] at drained
  | succ fuel ih =>
    cases queued : world.jobs with
    | nil =>
      rw [drain_quiet host (fuel + 1) world queued] at drained
      cases drained
      exact queued
    | cons job rest =>
      rw [drain_step host fuel world job rest queued] at drained
      exact ih _ drained

/-- More fuel changes nothing once the queue has run dry. -/
theorem drain_more (host : Host H O V R T S) (fuel extra : Nat) (world final : World H O V R T S)
    (drained : drain host fuel world = some final) : drain host (fuel + extra) world = some final := by
  induction fuel generalizing world with
  | zero =>
    cases queued : world.jobs with
    | nil =>
      rw [drain_quiet host 0 world queued] at drained
      rw [drain_quiet host _ world queued, drained]
    | cons job rest => simp [drain, queued] at drained
  | succ fuel ih =>
    cases queued : world.jobs with
    | nil =>
      rw [drain_quiet host (fuel + 1) world queued] at drained
      rw [drain_quiet host _ world queued, drained]
    | cons job rest =>
      rw [drain_step host fuel world job rest queued] at drained
      rw [show fuel + 1 + extra = (fuel + extra) + 1 by omega,
        drain_step host _ world job rest queued]
      exact ih _ drained

/-- The drained world does not depend on the fuel. -/
theorem drain_unique (host : Host H O V R T S) (first second : Nat)
    (world left right : World H O V R T S) (one : drain host first world = some left)
    (two : drain host second world = some right) : left = right := by
  have longer := drain_more host first second world left one
  have other := drain_more host second first world right two
  rw [Nat.add_comm second first, longer] at other
  exact Option.some.inj other

end Execution

section Frames

variable {H O V R T S : Type}

/-- The host's state is as before and no promise lost or changed its tag. -/
structure Undisturbed (before after : World H O V R T S) : Prop where
  host : after.host = before.host
  tags : ∀ target tag, before.tagOf target = some tag → after.tagOf target = some tag

theorem Undisturbed.refl (world : World H O V R T S) : Undisturbed world world := ⟨rfl, fun _ _ => id⟩

theorem Undisturbed.trans {first second third : World H O V R T S}
    (one : Undisturbed first second) (two : Undisturbed second third) : Undisturbed first third :=
  ⟨two.host.trans one.host, fun target tag known => two.tags target tag (one.tags target tag known)⟩

/-- A promise of the table may change its status. -/
theorem Undisturbed.replaced (world : World H O V R T S) (target : PromiseId)
    (found : Promise H O V R T) (held : world.promises[target]? = some found)
    (status : Status H O V R) (jobs : List (Job H O V R)) :
    Undisturbed world { world with
      promises := world.promises.set target (found.withStatus status), jobs := jobs } := by
  refine ⟨rfl, ?_⟩
  intro other tag known
  simp only [World.tagOf, List.getElem?_set] at known ⊢
  by_cases equal : target = other
  · subst equal
    rw [held, Option.map_some] at known
    have inside : target < world.promises.length := (List.getElem?_eq_some_iff.mp held).1
    simp only [↓reduceIte, inside, Option.map_some, Promise.withStatus]
    exact known
  · simpa only [equal, ↓reduceIte] using known

theorem World.settle_undisturbed (owner : Owner) (target : PromiseId) (outcome : Except V V)
    (world : World H O V R T S) : Undisturbed world (world.settle owner target outcome) := by
  unfold World.settle
  split
  · next promise held =>
      split
      · split
        · exact .replaced world target promise held _ _
        · exact .refl world
      · exact .refl world
  · exact .refl world

theorem World.react_undisturbed (target : PromiseId) (reaction : Reaction H O V R)
    (world : World H O V R T S) : Undisturbed world (world.react target reaction) := by
  unfold World.react
  split
  · next promise held =>
      split
      · exact .replaced world target promise held _ _
      · exact ⟨rfl, fun _ _ => id⟩
  · exact .refl world

theorem World.alloc_undisturbed (promise : Promise H O V R T) (world : World H O V R T S) : Undisturbed world (world.alloc promise).2 := by
  refine ⟨rfl, ?_⟩
  intro target tag known
  simp only [World.tagOf, World.alloc] at known ⊢
  have inside : target < world.promises.length := by
    by_contra outside
    rw [List.getElem?_eq_none (Nat.le_of_not_lt outside)] at known
    cases known
  rwa [List.getElem?_append_left inside]

theorem World.enqueue_undisturbed (job : Job H O V R) (world : World H O V R T S) :
    Undisturbed world (world.enqueue job) := ⟨rfl, fun _ _ => id⟩

@[simp] theorem World.settle_host (owner : Owner) (target : PromiseId) (outcome : Except V V)
    (world : World H O V R T S) : (world.settle owner target outcome).host = world.host :=
  (world.settle_undisturbed owner target outcome).host

@[simp] theorem World.react_host (target : PromiseId) (reaction : Reaction H O V R)
    (world : World H O V R T S) : (world.react target reaction).host = world.host :=
  (world.react_undisturbed target reaction).host

@[simp] theorem World.alloc_host (promise : Promise H O V R T) (world : World H O V R T S) :
    (world.alloc promise).2.host = world.host := rfl

@[simp] theorem World.enqueue_host (job : Job H O V R) (world : World H O V R T S) :
    (world.enqueue job).host = world.host := rfl

/-- Settling changes no tag. -/
theorem World.settle_tagOf (owner : Owner) (target other : PromiseId) (outcome : Except V V)
    (world : World H O V R T S) : (world.settle owner target outcome).tagOf other = world.tagOf other := by
  cases known : world.tagOf other with
  | some tag => exact (world.settle_undisturbed owner target outcome).tags other tag known
  | none =>
    simp only [World.tagOf, Option.map_eq_none_iff, List.getElem?_eq_none_iff] at known ⊢
    refine Nat.le_trans (Nat.le_of_eq ?_) known
    unfold World.settle
    split
    · split
      · split
        · rw [List.length_set]
        · rfl
      · rfl
    · rfl

/-- A new promise has the tag it was made with. -/
theorem World.alloc_tagOf (promise : Promise H O V R T) (world : World H O V R T S) :
    (world.alloc promise).2.tagOf (world.alloc promise).1 = some promise.tag := by
  simp [World.tagOf, World.alloc]

end Frames

section Invariants

variable {H O V R T S : Type} [Inhabited T]

/-- A property that calls and resumptions keep, and that speaks of nothing but the
host's state and the tags. -/
structure Host.Preserves (host : Host H O V R T S) (holds : World H O V R T S → Prop) : Prop where
  frame : ∀ before after, Undisturbed before after → holds before → holds after
  call : ∀ operation callbacks running world,
    (∀ index world, holds world → holds (running index world).1) →
    holds world → holds (host.call operation callbacks running world).1
  resume : ∀ resume outcome running world,
    (∀ body world, holds world → holds (running body world).1) →
    holds world → holds (host.resume resume outcome running world)

variable {host : Host H O V R T S} {holds : World H O V R T S → Prop}

/-- Code keeps what every call keeps. -/
theorem Host.Preserves.run (preserves : host.Preserves holds) (code : Code H O V) (world : World H O V R T S) (before : holds world) :
    holds (EventLoop.run host code world).1 := by
  induction code generalizing world with
  | finish completion => exact before
  | read next ih => exact ih world.heap world before
  | write heap next ih =>
    apply ih
    exact preserves.frame world _ ⟨rfl, fun _ _ => id⟩ before
  | promise next ih => exact ih _ _ (preserves.frame world _ (world.alloc_undisturbed _) before)
  | settle target outcome next ih =>
    exact ih _ (preserves.frame world _ (world.settle_undisturbed _ _ _) before)
  | react target reaction next _ ih =>
    exact ih _ (preserves.frame world _ (world.react_undisturbed _ _) before)
  | call operation callbacks next callbacksHold ih =>
    exact ih _ _ (preserves.call operation callbacks _ world
      (fun index world kept => callbacksHold index world kept) before)

theorem Host.Preserves.perform (preserves : host.Preserves holds) (job : Job H O V R)
    (world : World H O V R T S) (before : holds world) : holds (EventLoop.perform host job world) := by
  cases job with
  | code body => exact preserves.run body world before
  | host resume outcome =>
    exact preserves.resume resume outcome _ world (fun body world kept => preserves.run body world kept) before

/-- A whole run of the queue keeps what every call and resumption keeps. -/
theorem Host.Preserves.drain (preserves : host.Preserves holds) (fuel : Nat)
    (world final : World H O V R T S) (drained : EventLoop.drain host fuel world = some final) (before : holds world) : holds final := by
  induction fuel generalizing world with
  | zero =>
    cases queued : world.jobs with
    | nil =>
      rw [drain_quiet host 0 world queued] at drained
      cases drained
      exact before
    | cons job rest => simp [EventLoop.drain, queued] at drained
  | succ fuel ih =>
    cases queued : world.jobs with
    | nil =>
      rw [drain_quiet host (fuel + 1) world queued] at drained
      cases drained
      exact before
    | cons job rest =>
      rw [drain_step host fuel world job rest queued] at drained
      have popped := preserves.frame world { world with jobs := rest } ⟨rfl, fun _ _ => id⟩ before
      exact ih _ drained (preserves.perform job _ popped)

end Invariants

end DurableExecution.EventLoop

import DurableExecution.EventLoop.Code

/-
This file compares the same code on two hosts. The two worlds move in lockstep:
they hold the same microtasks, and their promises differ only where the second
host knows an outcome that the first one will never see.
-/

namespace DurableExecution.EventLoop

/-- A comparison of two hosts relates their tags and their states.
`frozen` marks a promise of the second host that must not settle yet.
`lost` marks a state of the first host after which nothing is claimed. -/
structure Comparison (T S₁ S₂ : Type) where
  tags : T → T → Prop
  frozen : T → Prop
  hosts : S₁ → S₂ → Prop
  lost : S₁ → Prop

section Relation

variable {H O V R T S₁ S₂ : Type} (comparison : Comparison T S₁ S₂)

def Promise.Frozen (promise : Promise H O V R T) : Prop := comparison.frozen promise.tag

/-- A frozen promise belongs to the host and only has to be pending on both sides. -/
structure Promise.Alike (first second : Promise H O V R T) : Prop where
  owner : first.owner = second.owner
  held : second.Frozen comparison → second.owner = .host
  tag : comparison.tags first.tag second.tag
  frozen : second.Frozen comparison → first.Pending ∧ second.Pending
  moving : ¬ second.Frozen comparison → first.status = second.status

structure Lockstep (first : World H O V R T S₁) (second : World H O V R T S₂) : Prop where
  heap : first.heap = second.heap
  jobs : first.jobs = second.jobs
  size : first.promises.length = second.promises.length
  promises : ∀ (index : Nat) (one two : Promise H O V R T),
    first.promises[index]? = some one → second.promises[index]? = some two →
      one.Alike comparison two
  host : comparison.hosts first.host second.host

/-- Two answers agree unless the first run is lost. -/
def Agree (first : World H O V R T S₁ × Except V V)
    (second : World H O V R T S₂ × Except V V) : Prop :=
  comparison.lost first.1.host ∨ (Lockstep comparison first.1 second.1 ∧ first.2 = second.2)

end Relation

section Steps

variable {H O V R T S₁ S₂ : Type} {comparison : Comparison T S₁ S₂}
variable {first : World H O V R T S₁} {second : World H O V R T S₂}

/-- An id is in use in both tables or in neither. -/
theorem Lockstep.lookup (lockstep : Lockstep comparison first second) (target : PromiseId) :
    (first.promises[target]? = none ∧ second.promises[target]? = none) ∨
      ∃ one two, first.promises[target]? = some one ∧ second.promises[target]? = some two ∧ one.Alike comparison two := by
  by_cases inside : target < first.promises.length
  · right
    have inside' : target < second.promises.length := lockstep.size ▸ inside
    refine ⟨first.promises[target], second.promises[target], List.getElem?_eq_getElem inside,
      List.getElem?_eq_getElem inside', ?_⟩
    exact lockstep.promises target _ _ (List.getElem?_eq_getElem inside)
      (List.getElem?_eq_getElem inside')
  · left
    have outside : first.promises.length ≤ target := Nat.le_of_not_lt inside
    exact ⟨List.getElem?_eq_none outside, List.getElem?_eq_none (lockstep.size ▸ outside)⟩

/-- Replacing one promise on both sides keeps the tables alike. -/
theorem Lockstep.replaced (lockstep : Lockstep comparison first second) (target : PromiseId)
    (one two : Promise H O V R T) (alike : one.Alike comparison two) (index : Nat) (left right : Promise H O V R T)
    (atLeft : (first.promises.set target one)[index]? = some left) (atRight : (second.promises.set target two)[index]? = some right) :
    left.Alike comparison right := by
  rw [List.getElem?_set] at atLeft atRight
  by_cases same : target = index
  · simp only [same, ↓reduceIte] at atLeft atRight
    split at atLeft
    · split at atRight
      · cases atLeft
        cases atRight
        exact alike
      · cases atRight
    · cases atLeft
  · simp only [same, ↓reduceIte] at atLeft atRight
    exact lockstep.promises index left right atLeft atRight

theorem Lockstep.alloc (lockstep : Lockstep comparison first second) (one two : Promise H O V R T) (alike : one.Alike comparison two) :
    Lockstep comparison (first.alloc one).2 (second.alloc two).2 where
  heap := lockstep.heap
  jobs := lockstep.jobs
  size := by
    simp only [World.alloc, List.length_append, List.length_singleton, lockstep.size]
  promises := by
    intro index left right atLeft atRight
    simp only [World.alloc] at atLeft atRight
    rw [List.getElem?_append] at atLeft atRight
    by_cases inside : index < first.promises.length
    · have inside' : index < second.promises.length := lockstep.size ▸ inside
      rw [if_pos inside] at atLeft
      rw [if_pos inside'] at atRight
      exact lockstep.promises index left right atLeft atRight
    · have outside' : ¬ index < second.promises.length := lockstep.size ▸ inside
      rw [if_neg inside, List.getElem?_singleton] at atLeft
      rw [if_neg outside', List.getElem?_singleton] at atRight
      split at atLeft
      · split at atRight
        · cases atLeft
          cases atRight
          exact alike
        · cases atRight
      · cases atLeft
  host := lockstep.host

theorem Lockstep.alloc_id (lockstep : Lockstep comparison first second)
    (one two : Promise H O V R T) : (first.alloc one).1 = (second.alloc two).1 := lockstep.size

theorem Lockstep.enqueue (lockstep : Lockstep comparison first second) (job : Job H O V R) :
    Lockstep comparison (first.enqueue job) (second.enqueue job) where
  heap := lockstep.heap
  jobs := congrArg (· ++ [job]) lockstep.jobs
  size := lockstep.size
  promises := lockstep.promises
  host := lockstep.host

theorem Lockstep.write (lockstep : Lockstep comparison first second) (heap : H) :
    Lockstep comparison { first with heap := heap } { second with heap := heap } where
  heap := rfl
  jobs := lockstep.jobs
  size := lockstep.size
  promises := lockstep.promises
  host := lockstep.host

/-- Each host may change its own state as long as the states stay related. -/
theorem Lockstep.withHost (lockstep : Lockstep comparison first second) (one : S₁) (two : S₂)
    (related : comparison.hosts one two) :
    Lockstep comparison { first with host := one } { second with host := two } where
  heap := lockstep.heap
  jobs := lockstep.jobs
  size := lockstep.size
  promises := lockstep.promises
  host := related

/-- Both sides settle a promise together when the second host has not frozen it. -/
theorem Lockstep.settle (lockstep : Lockstep comparison first second) (owner : Owner) (target : PromiseId) (outcome : Except V V)
    (free : ∀ promise, second.promises[target]? = some promise → promise.owner = owner → ¬ promise.Frozen comparison) :
    Lockstep comparison (first.settle owner target outcome) (second.settle owner target outcome) := by
  rcases lockstep.lookup target with ⟨absent, absent'⟩ | ⟨one, two, found, found', alike⟩
  · simpa only [World.settle, absent, absent'] using lockstep
  · by_cases held : two.owner = owner
    · have moving := alike.moving (free two found' held)
      cases status : two.status with
      | settled outcome' =>
        rw [status] at moving
        simpa only [World.settle, found, found', moving, status] using lockstep
      | pending reactions =>
        rw [status] at moving
        have heldLeft : one.owner = owner := alike.owner.trans held
        simp only [World.settle, found, found', moving, status, heldLeft, held, ↓reduceIte]
        refine ⟨lockstep.heap, ?_, ?_, ?_, lockstep.host⟩
        · simp only [lockstep.jobs]
        · simp only [List.length_set, lockstep.size]
        · have settled : Promise.Alike comparison
              (one.withStatus (.settled outcome))
              (two.withStatus (.settled outcome)) :=
            { owner := alike.owner
              held := alike.held
              tag := alike.tag
              frozen := fun frozen => absurd frozen (free two found' held)
              moving := fun _ => rfl }
          exact lockstep.replaced target _ _ settled
    · have heldLeft : ¬ one.owner = owner := fun equal => held (alike.owner.symm.trans equal)
      have unchanged : first.settle owner target outcome = first := by
        simp only [World.settle, found]
        cases one.status <;> simp only [heldLeft, ↓reduceIte]
      have unchanged' : second.settle owner target outcome = second := by
        simp only [World.settle, found']
        cases two.status <;> simp only [held, ↓reduceIte]
      rw [unchanged, unchanged']
      exact lockstep

/-- Only the host can settle a frozen promise. -/
theorem Lockstep.settle_unheld (lockstep : Lockstep comparison first second) (owner : Owner)
    (unheld : owner ≠ .host) (target : PromiseId) (outcome : Except V V) :
    Lockstep comparison (first.settle owner target outcome) (second.settle owner target outcome) := by
  apply lockstep.settle
  intro promise found held frozen
  rcases lockstep.lookup target with ⟨_, absent⟩ | ⟨one, two, _, found', alike⟩
  · cases absent.symm.trans found
  · cases found.symm.trans found'
    exact unheld (held.symm.trans (alike.held frozen))

/-- A reaction registered on both sides keeps the worlds in lockstep. -/
theorem Lockstep.react (lockstep : Lockstep comparison first second) (target : PromiseId) (reaction : Reaction H O V R) :
    Lockstep comparison (first.react target reaction) (second.react target reaction) := by
  rcases lockstep.lookup target with ⟨absent, absent'⟩ | ⟨one, two, found, found', alike⟩
  · simpa only [World.react, absent, absent'] using lockstep
  · by_cases frozen : two.Frozen comparison
    · obtain ⟨⟨left, pending⟩, ⟨right, pending'⟩⟩ := alike.frozen frozen
      simp only [World.react, found, found', pending, pending']
      refine ⟨lockstep.heap, lockstep.jobs, ?_, ?_, lockstep.host⟩
      · simp only [List.length_set, lockstep.size]
      · have longer : Promise.Alike comparison
            (one.withStatus (.pending (left ++ [reaction])))
            (two.withStatus (.pending (right ++ [reaction]))) :=
          { owner := alike.owner
            held := alike.held
            tag := alike.tag
            frozen := fun _ => ⟨⟨_, rfl⟩, ⟨_, rfl⟩⟩
            moving := fun moves => absurd frozen moves }
        exact lockstep.replaced target _ _ longer
    · have moving := alike.moving frozen
      cases status : two.status with
      | settled outcome =>
        rw [status] at moving
        simp only [World.react, found, found', moving, status]
        exact lockstep.enqueue (reaction.job outcome)
      | pending reactions =>
        rw [status] at moving
        simp only [World.react, found, found', moving, status]
        refine ⟨lockstep.heap, lockstep.jobs, ?_, ?_, lockstep.host⟩
        · simp only [List.length_set, lockstep.size]
        · have longer : Promise.Alike comparison
              (one.withStatus (.pending (reactions ++ [reaction])))
              (two.withStatus (.pending (reactions ++ [reaction]))) :=
            { owner := alike.owner
              held := alike.held
              tag := alike.tag
              frozen := fun _ => ⟨⟨_, rfl⟩, ⟨_, rfl⟩⟩
              moving := fun _ => rfl }
          exact lockstep.replaced target _ _ longer

/-- The second host may wait for a frozen promise on its own. -/
theorem Lockstep.react_right (lockstep : Lockstep comparison first second) (target : PromiseId) (reaction : Reaction H O V R)
    (frozen : ∀ promise, second.promises[target]? = some promise → promise.Frozen comparison) :
    Lockstep comparison first (second.react target reaction) := by
  rcases lockstep.lookup target with ⟨absent, absent'⟩ | ⟨one, two, found, found', alike⟩
  · simpa only [World.react, absent'] using lockstep
  · obtain ⟨pending, ⟨right, pending'⟩⟩ := alike.frozen (frozen two found')
    simp only [World.react, found', pending']
    refine ⟨lockstep.heap, lockstep.jobs, ?_, ?_, lockstep.host⟩
    · simp only [List.length_set, lockstep.size]
    · have longer : Promise.Alike comparison one
          (two.withStatus (.pending (right ++ [reaction]))) :=
        { owner := alike.owner
          held := alike.held
          tag := alike.tag
          frozen := fun _ => ⟨pending, ⟨_, rfl⟩⟩
          moving := fun moves => absurd (frozen two found') moves }
      intro index left after atLeft atRight
      rw [List.getElem?_set] at atRight
      by_cases same : target = index
      · subst same
        simp only [↓reduceIte] at atRight
        split at atRight
        · cases atRight
          rw [found] at atLeft
          cases atLeft
          exact longer
        · cases atRight
      · simp only [same, ↓reduceIte] at atRight
        exact lockstep.promises index left after atLeft atRight

end Steps

section Runs

variable {H O V R T S₁ S₂ : Type} [Inhabited T]

/-- The second host follows the first one call by call. -/
structure Simulates (comparison : Comparison T S₁ S₂) (one : Host H O V R T S₁)
    (two : Host H O V R T S₂) : Prop where
  fresh : comparison.tags default default
  thawed : ¬ comparison.frozen default
  lost : one.Preserves fun world => comparison.lost world.host
  call : ∀ operation callbacks (left : Nat → Effect H O V R T S₁) (right : Nat → Effect H O V R T S₂),
    (∀ index first second, Lockstep comparison first second →
      Agree comparison (left index first) (right index second)) →
    (∀ index world, comparison.lost world.host → comparison.lost (left index world).1.host) →
    ∀ first second, Lockstep comparison first second →
      Agree comparison (one.call operation callbacks left first) (two.call operation callbacks right second)
  resume : ∀ resume outcome (left : Code H O V → Effect H O V R T S₁)
    (right : Code H O V → Effect H O V R T S₂),
    (∀ body first second, Lockstep comparison first second →
      Agree comparison (left body first) (right body second)) →
    (∀ body world, comparison.lost world.host → comparison.lost (left body world).1.host) →
    ∀ first second, Lockstep comparison first second →
      comparison.lost (one.resume resume outcome left first).host ∨
        Lockstep comparison (one.resume resume outcome left first) (two.resume resume outcome right second)

variable {comparison : Comparison T S₁ S₂} {one : Host H O V R T S₁} {two : Host H O V R T S₂}

/-- The same code ends in lockstep and returns the same on both hosts. -/
theorem Simulates.run (simulates : Simulates comparison one two) (code : Code H O V)
    (first : World H O V R T S₁) (second : World H O V R T S₂) (lockstep : Lockstep comparison first second) :
    Agree comparison (EventLoop.run one code first) (EventLoop.run two code second) := by
  induction code generalizing first second with
  | finish completion => exact .inr ⟨lockstep, rfl⟩
  | read next ih =>
    simp only [EventLoop.run, lockstep.heap]
    exact ih second.heap first second lockstep
  | write heap next ih => exact ih _ _ (lockstep.write heap)
  | promise next ih =>
    simp only [EventLoop.run]
    rw [lockstep.alloc_id ⟨.code, default, .pending []⟩ ⟨.code, default, .pending []⟩]
    apply ih
    apply lockstep.alloc
    exact { owner := rfl
            held := fun frozen => absurd frozen simulates.thawed
            tag := simulates.fresh
            frozen := fun frozen => absurd frozen simulates.thawed
            moving := fun _ => rfl }
  | settle target outcome next ih => exact ih _ _ (lockstep.settle_unheld .code nofun target outcome)
  | react target reaction next _ ih => exact ih _ _ (lockstep.react target (.code reaction))
  | call operation callbacks next callbacksAgree ih =>
    simp only [EventLoop.run]
    have answers := simulates.call operation callbacks
      (fun index => EventLoop.run one (callbacks index))
      (fun index => EventLoop.run two (callbacks index))
      (fun index first second related => callbacksAgree index first second related)
      (fun index world lost => simulates.lost.run (callbacks index) world lost)
      first second lockstep
    rcases answers with lost | ⟨related, same⟩
    · exact .inl (simulates.lost.run _ _ lost)
    · rw [same]
      exact ih _ _ _ related

theorem Simulates.perform (simulates : Simulates comparison one two) (job : Job H O V R)
    (first : World H O V R T S₁) (second : World H O V R T S₂) (lockstep : Lockstep comparison first second) :
    comparison.lost (EventLoop.perform one job first).host ∨
      Lockstep comparison (EventLoop.perform one job first) (EventLoop.perform two job second) := by
  cases job with
  | code body =>
    rcases simulates.run body first second lockstep with lost | ⟨related, _⟩
    · exact .inl lost
    · exact .inr related
  | host resume outcome =>
    exact simulates.resume resume outcome _ _ (fun body => simulates.run body)
      (fun body world lost => simulates.lost.run body world lost) first second lockstep

/-- Draining both queues takes the same number of microtasks. -/
theorem Simulates.drain (simulates : Simulates comparison one two) (fuel : Nat)
    (first final : World H O V R T S₁) (second : World H O V R T S₂) (lockstep : Lockstep comparison first second)
    (drained : EventLoop.drain one fuel first = some final) : comparison.lost final.host ∨
      ∃ last, EventLoop.drain two fuel second = some last ∧ Lockstep comparison final last := by
  induction fuel generalizing first second with
  | zero =>
    cases queued : first.jobs with
    | nil =>
      rw [drain_quiet one 0 first queued] at drained
      cases drained
      exact .inr ⟨second, drain_quiet two 0 second (lockstep.jobs ▸ queued), lockstep⟩
    | cons job rest => simp [EventLoop.drain, queued] at drained
  | succ fuel ih =>
    cases queued : first.jobs with
    | nil =>
      rw [drain_quiet one (fuel + 1) first queued] at drained
      cases drained
      exact .inr ⟨second, drain_quiet two _ second (lockstep.jobs ▸ queued), lockstep⟩
    | cons job rest =>
      rw [drain_step one fuel first job rest queued] at drained
      rw [drain_step two fuel second job rest (lockstep.jobs ▸ queued)]
      have popped : Lockstep comparison { first with jobs := rest } { second with jobs := rest } :=
        { heap := lockstep.heap
          jobs := rfl
          size := lockstep.size
          promises := lockstep.promises
          host := lockstep.host }
      rcases simulates.perform job _ _ popped with lost | related
      · exact .inl (simulates.lost.drain fuel _ final drained lost)
      · exact ih _ _ related drained

end Runs

end DurableExecution.EventLoop

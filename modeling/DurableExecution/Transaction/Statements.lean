import Mathlib.Data.List.Basic
import Mathlib.Tactic.Common

/-
This file models transactions: statements run one after the other on a store, any of
them may fail, and a failure takes all of them back.
-/

namespace DurableExecution.Transaction

/-- Why a transaction ended early: a statement failed or the work raised an error. -/
inductive Fault (E : Type) where
  | statement
  | raised (error : E)

/-- The store that a transaction sees, and how many statements succeed before one fails. -/
structure Session (S : Type) where
  store : S
  budget : Option Nat

/-- The work of a transaction. -/
abbrev Work (S E A : Type) := StateT (Session S) (Except (Fault E)) A

section Operations

variable {S E A : Type}

/-- One statement. It fails when the budget is used up or when the store refuses it. -/
def statement (query : S → Option (A × S)) : Work S E A := fun session =>
  match session.budget, query session.store with
  | some 0, _ => .error .statement
  | _, none => .error .statement
  | budget, some (answer, store) => .ok (answer, ⟨store, budget.map (· - 1)⟩)

/-- A statement that only reads. -/
def select (read : S → A) : Work S E A := statement fun store => some (read store, store)

/-- A statement that writes and that the store never refuses. -/
def write (change : S → S) : Work S E Unit := statement fun store => some ((), change store)

/-- The work gives up. -/
def raise (error : E) : Work S E A := fun _ => .error (.raised error)

/-- This operation runs work between `begin` and `commit`. A fault rolls all of it back. -/
def withTransaction (work : Work S E A) (budget : Option Nat) (store : S) : Except (Fault E) A × S :=
  let whole : Work S E A := do
    select fun _ => ()
    let answer ← work
    select fun _ => ()
    pure answer
  match whole ⟨store, budget⟩ with
  | .ok (answer, session) => (.ok answer, session.store)
  | .error fault => (.error fault, store)

end Operations

section Rules

variable {S E A B : Type}

/-- Work that starts in a store with one property and succeeds ends with the other. -/
def Ensures (before : S → Prop) (work : Work S E A) (after : A → S → Prop) : Prop :=
  ∀ session answer session', before session.store → work session = .ok (answer, session') →
    after answer session'.store

variable {before : S → Prop} {after : A → S → Prop} {work : Work S E A}

theorem Ensures.mono {before' : S → Prop} {after' : A → S → Prop} (ensures : Ensures before work after)
    (stronger : ∀ store, before' store → before store)
    (weaker : ∀ answer store, after answer store → after' answer store) : Ensures before' work after' :=
  fun session answer session' held ran => weaker _ _ (ensures session answer session' (stronger _ held) ran)

theorem Ensures.pure {answer : A} (holds : ∀ store, before store → after answer store) :
    Ensures (E := E) before (Pure.pure answer) after := by
  intro session other session' held ran
  cases ran
  exact holds _ held

theorem Ensures.bind {next : A → Work S E B} {middle : A → S → Prop} {last : B → S → Prop}
    (first : Ensures before work middle) (second : ∀ answer, Ensures (middle answer) (next answer) last) :
    Ensures before (work >>= next) last := by
  intro session answer session' held ran
  simp only [Bind.bind, StateT.bind, Except.bind] at ran
  split at ran
  · cases ran
  · next found answered =>
      obtain ⟨middle', session''⟩ := found
      exact second middle' session'' answer session' (first session middle' session'' held answered) ran

theorem Ensures.statement {query : S → Option (A × S)}
    (holds : ∀ store answer store', before store → query store = some (answer, store') → after answer store') :
    Ensures (E := E) before (Transaction.statement query) after := by
  intro session answer session' held ran
  unfold Transaction.statement at ran
  split at ran
  · cases ran
  · cases ran
  · next answered _ =>
      cases ran
      exact holds _ _ _ held answered

theorem Ensures.select {read : S → A} (holds : ∀ store, before store → after (read store) store) :
    Ensures (E := E) before (Transaction.select read) after := by
  refine .statement fun store answer store' held answered => ?_
  cases answered
  exact holds store held

theorem Ensures.write {change : S → S} {after : Unit → S → Prop}
    (holds : ∀ store, before store → after () (change store)) :
    Ensures (E := E) before (Transaction.write change) after := by
  refine .statement fun store answer store' held answered => ?_
  cases answered
  exact holds store held

/-- Work is judged from each store that it may start in. -/
theorem Ensures.each (holds : ∀ store, before store → Ensures (· = store) work after) : Ensures before work after :=
  fun session answer session' held ran => holds session.store held session answer session' rfl ran

theorem Ensures.raise {error : E} : Ensures before (Transaction.raise (A := A) error) after := nofun

/-- The same, with the property between the two named. -/
theorem Ensures.through {next : A → Work S E B} (middle : A → S → Prop) {last : B → S → Prop}
    (first : Ensures before work middle) (second : ∀ answer, Ensures (middle answer) (next answer) last) :
    Ensures before (work >>= next) last := first.bind second

/-- Work that leaves the store alone is followed by work from the same store. -/
theorem Ensures.keeps {store : S} {next : A → Work S E B} {last : B → S → Prop} (first : Ensures (· = store) work fun _ => (· = store))
    (second : ∀ answer, Ensures (· = store) (next answer) last) : Ensures (· = store) (work >>= next) last :=
  first.bind second

/-- What a read answers is known from the store. -/
theorem Ensures.read {store : S} {read : S → A} {next : A → Work S E B} {last : B → S → Prop}
    (second : Ensures (· = store) (next (read store)) last) : Ensures (· = store) (Transaction.select read >>= next) last := by
  refine .through (fun answer store' => store' = store ∧ answer = read store) (.select ?_) fun answer => ?_
  · rintro _ rfl
    exact ⟨rfl, rfl⟩
  · refine .each fun _ ⟨same, answered⟩ => ?_
    rw [same, answered]
    exact second

/-- What a write leaves is known from the store. -/
theorem Ensures.wrote {store : S} {change : S → S} {next : Unit → Work S E B} {last : B → S → Prop}
    (second : Ensures (· = change store) (next ()) last) : Ensures (· = store) (Transaction.write change >>= next) last := by
  refine .through (fun _ store' => store' = change store) (.write ?_) fun _ => second
  rintro _ rfl
  rfl

/-- Work is followed by work from each store it may end in. -/
theorem Ensures.then {next : A → Work S E B} {middle : A → S → Prop} {last : B → S → Prop}
    (first : Ensures before work middle)
    (second : ∀ answer store, middle answer store → Ensures (· = store) (next answer) last) :
    Ensures before (work >>= next) last :=
  .bind first fun answer => .each fun store held => second answer store held

theorem Ensures.discard {after : A → S → Prop} (ensures : Ensures before work after) :
    Ensures before (Functor.discard work) fun _ store => ∃ answer, after answer store := by
  intro session answer session' held ran
  change (work session >>= fun found => Except.ok (PUnit.unit, found.2)) = _ at ran
  cases answered : work session with
  | error fault =>
    rw [answered] at ran
    cases ran
  | ok found =>
    rw [answered] at ran
    cases ran
    exact ⟨found.1, ensures session found.1 found.2 held answered⟩

/-- A read whose answer is not used leaves the store alone. -/
theorem Ensures.looked {store : S} {read : S → A} :
    Ensures (E := E) (· = store) (Functor.discard (Transaction.select read)) fun _ => (· = store) := by
  have looked : Ensures (E := E) (· = store) (Transaction.select read) fun _ => (· = store) := .select fun _ => id
  exact looked.discard.mono (fun _ => id) fun _ _ ⟨_, same⟩ => same

/-- Work that is repeated keeps what each round keeps. -/
theorem Ensures.forM {items : List B} {each : B → Work S E PUnit} {invariant : S → Prop}
    (round : ∀ item ∈ items, Ensures invariant (each item) fun _ => invariant) :
    Ensures invariant (items.forM each) fun _ => invariant := by
  induction items with
  | nil => exact .pure fun _ => id
  | cons item rest ih =>
    refine .bind (round item List.mem_cons_self) fun _ => ?_
    exact ih fun other member => round other (List.mem_cons_of_mem _ member)

/-- A transaction changes nothing, or it commits what its work ensures. -/
theorem withTransaction_cases (ensures : Ensures before work after) (budget : Option Nat) (store : S) (held : before store) :
    (∃ fault, withTransaction work budget store = (.error fault, store)) ∨
      ∃ answer store', withTransaction work budget store = (.ok answer, store') ∧ after answer store' := by
  unfold withTransaction
  dsimp only
  split
  · next answer session ran =>
      right
      refine ⟨answer, session.store, rfl, ?_⟩
      have whole : Ensures (fun other => other = store) (do
          Transaction.select (E := E) fun _ => ()
          let answer ← work
          Transaction.select fun _ => ()
          Pure.pure answer) after := by
        refine .through (fun _ => before) (.select fun other same => same ▸ held) fun _ => ?_
        refine .bind ensures fun answer => ?_
        exact .through (fun _ => after answer) (.select fun _ => id) fun _ => .pure fun _ => id
      exact whole ⟨store, budget⟩ answer session rfl ran
  · next fault _ => exact .inl ⟨fault, rfl⟩

/-- A statement that is not made to fail answers what the store answers. -/
theorem statement_answers {query : S → Option (A × S)} {store store' : S} {answer : A}
    (answered : query store = some (answer, store')) :
    Transaction.statement (E := E) query ⟨store, none⟩ = .ok (answer, ⟨store', none⟩) := by
  simp only [Transaction.statement, answered]
  rfl

/-- Work that is not made to fail is followed by work that is not. -/
theorem bind_answers {next : A → Work S E B} {store store' : S} {answer : A}
    (answered : work ⟨store, none⟩ = .ok (answer, ⟨store', none⟩)) : (work >>= next) ⟨store, none⟩ = next answer ⟨store', none⟩ := by
  simp only [Bind.bind, StateT.bind, Except.bind, answered]

theorem select_answers {read : S → A} {next : A → Work S E B} {store : S} :
    (Transaction.select read >>= next) ⟨store, none⟩ = next (read store) ⟨store, none⟩ :=
  bind_answers (statement_answers rfl)

theorem write_answers {change : S → S} {next : Unit → Work S E B} {store : S} :
    (Transaction.write change >>= next) ⟨store, none⟩ = next () ⟨change store, none⟩ :=
  bind_answers (statement_answers rfl)

/-- A transaction whose work succeeds commits. -/
theorem withTransaction_commits {store store' : S} {answer : A} (answered : work ⟨store, none⟩ = .ok (answer, ⟨store', none⟩)) :
    withTransaction work none store = (.ok answer, store') := by
  have whole : (do
      Transaction.select (E := E) fun _ => ()
      let answer ← work
      Transaction.select fun _ => ()
      Pure.pure answer) ⟨store, none⟩ = .ok (answer, ⟨store', none⟩) := by
    rw [select_answers, bind_answers answered, select_answers]
    rfl
  unfold withTransaction
  dsimp only
  rw [whole]

end Rules

section Relations

variable {S E A B : Type} {relation : S → S → Prop}

/-- Work that takes every store to a related one. -/
def Keeps (relation : S → S → Prop) (work : Work S E A) : Prop :=
  ∀ session answer session', work session = .ok (answer, session') → relation session.store session'.store

theorem Keeps.pure (reflexive : ∀ store, relation store store) (answer : A) : Keeps relation (Pure.pure answer : Work S E A) := by
  intro session other session' ran
  cases ran
  exact reflexive _

theorem Keeps.bind (transitive : ∀ one two three, relation one two → relation two three → relation one three)
    {work : Work S E A} {next : A → Work S E B} (first : Keeps relation work)
    (second : ∀ answer, Keeps relation (next answer)) : Keeps relation (work >>= next) := by
  intro session answer session' ran
  simp only [Bind.bind, StateT.bind, Except.bind] at ran
  split at ran
  · cases ran
  · next found answered =>
      obtain ⟨middle, session''⟩ := found
      exact transitive _ _ _ (first session middle session'' answered) (second middle session'' answer session' ran)

theorem Keeps.statement {query : S → Option (A × S)}
    (holds : ∀ store answer store', query store = some (answer, store') → relation store store') :
    Keeps (E := E) relation (Transaction.statement query) := by
  intro session answer session' ran
  unfold Transaction.statement at ran
  split at ran
  · cases ran
  · cases ran
  · next answered _ =>
      cases ran
      exact holds _ _ _ answered

theorem Keeps.select (reflexive : ∀ store, relation store store) (read : S → A) :
    Keeps (E := E) relation (Transaction.select read) := by
  refine .statement fun store answer store' answered => ?_
  cases answered
  exact reflexive store

theorem Keeps.write {change : S → S} (holds : ∀ store, relation store (change store)) :
    Keeps (E := E) relation (Transaction.write change) := by
  refine .statement fun store answer store' answered => ?_
  cases answered
  exact holds store

theorem Keeps.raise (error : E) : Keeps relation (Transaction.raise error : Work S E A) := nofun

theorem Keeps.discard {work : Work S E A} (keeps : Keeps relation work) : Keeps relation (Functor.discard work) := by
  intro session answer session' ran
  change (work session >>= fun found => Except.ok (PUnit.unit, found.2)) = _ at ran
  cases answered : work session with
  | error fault =>
    rw [answered] at ran
    cases ran
  | ok found =>
    rw [answered] at ran
    cases ran
    exact keeps session found.1 found.2 answered

theorem Keeps.forM (reflexive : ∀ store, relation store store)
    (transitive : ∀ one two three, relation one two → relation two three → relation one three)
    {items : List B} {each : B → Work S E PUnit} (round : ∀ item ∈ items, Keeps relation (each item)) :
    Keeps relation (items.forM each) := by
  induction items with
  | nil => exact .pure reflexive _
  | cons item rest ih =>
    refine .bind transitive (round item List.mem_cons_self) fun _ => ?_
    exact ih fun other member => round other (List.mem_cons_of_mem _ member)

/-- What work ensures, and what it keeps. -/
theorem Ensures.kept {A : Type} {work : Work S E A} {store : S} {after : A → S → Prop} (ensures : Ensures (· = store) work after)
    (keeps : Keeps relation work) : Ensures (· = store) work fun answer store' => after answer store' ∧ relation store store' := by
  rintro session answer session' rfl ran
  exact ⟨ensures session answer session' rfl ran, keeps session answer session' ran⟩

/-- A transaction takes every store to a related one. -/
theorem withTransaction_keeps (reflexive : ∀ store, relation store store) {work : Work S E A}
    (keeps : Keeps relation work) (budget : Option Nat) (store : S) : relation store (withTransaction work budget store).2 := by
  have ensures : Ensures (· = store) work fun _ store' => relation store store' := by
    intro session answer session' same ran
    rw [← same]
    exact keeps session answer session' ran
  rcases withTransaction_cases ensures budget store rfl with ⟨fault, failed⟩ | ⟨answer, store', done, related⟩
  · rw [failed]
    exact reflexive store
  · rw [done]
    exact related

end Relations

end DurableExecution.Transaction

import Mathlib.Data.Finset.Sort
import Mathlib.Logic.Function.Basic

/-
This file models the migrator: its callers send statements over sessions of their own, each of which may fail, and an
advisory lock lets one of them work at a time. It shows what each call commits.
-/

namespace DurableExecution.Db

section Server

variable {Id : Type} [LinearOrder Id]

/-- The script of a migration. -/
inductive Sql (Id : Type) where
  | up (id : Id)
  | down (id : Id)

inductive Change (Id : Type) where
  | ran (sql : Sql Id)
  | inserted (id : Id)
  | deleted (id : Id)

/-- What is committed, the scripts with the call that ran them, and the call whose session holds the lock. -/
structure Database (Id : Type) where
  scripts : List (Nat × Sql Id)
  rows : Finset Id
  lock : Option Nat

def Database.apply (caller : Nat) (database : Database Id) : Change Id → Database Id
  | .ran sql => { database with scripts := database.scripts ++ [(caller, sql)] }
  | .inserted id => { database with rows := insert id database.rows }
  | .deleted id => { database with rows := database.rows.erase id }

inductive Transaction (Id : Type) where
  | idle
  | active (changes : List (Change Id))
  | aborted

/-- The session of a client, until its connection is lost. -/
inductive Session (Id : Type) where
  | opened (transaction : Transaction Id)
  | lost

inductive Statement (Id : Type) where
  | lock
  | unlock
  | ensureTable
  | selectIds
  | start
  | commit
  | rollback
  | change (change : Change Id)

/-- What a session's end frees. -/
def Database.freed (caller : Nat) (database : Database Id) : Database Id :=
  if database.lock = some caller then { database with lock := none } else database

/-- What the server does for a statement that it accepts. It lets a call wait for the lock. -/
def execute (caller : Nat) (database : Database Id) (transaction : Transaction Id) :
    Statement Id → Option (List Id × Transaction Id × Database Id)
  | .lock => if database.lock = none then some ([], transaction, { database with lock := some caller }) else none
  | .unlock => some ([], transaction, database.freed caller)
  | .ensureTable => some ([], transaction, database)
  | .selectIds => some (database.rows.sort, transaction, database)
  | .start => some ([], .active [], database)
  | .commit =>
    match transaction with
    | .active changes => some ([], .idle, changes.foldl (Database.apply caller) database)
    | _ => some ([], .idle, database)
  | .rollback => some ([], .idle, database)
  | .change change =>
    match transaction with
    | .idle => some ([], .idle, database.apply caller change)
    | .active changes => some ([], .active (changes ++ [change]), database)
    | .aborted => none

/-- A statement that the server refuses aborts its transaction. -/
def Transaction.refused : Transaction Id → Transaction Id
  | .idle => .idle
  | _ => .aborted

/-- The ways in which a statement ends. Without an answer it throws. -/
inductive Performed (caller : Nat) (database : Database Id) (statement : Statement Id) :
    Session Id → Option (List Id) → Session Id → Database Id → Prop
  | answered {transaction after : Transaction Id} {answer : List Id} {result : Database Id} :
      execute caller database transaction statement = some (answer, after, result) →
      Performed caller database statement (.opened transaction) (some answer) (.opened after) result
  | refused {transaction : Transaction Id} :
      Performed caller database statement (.opened transaction) none (.opened transaction.refused) database
  | unanswered {transaction after : Transaction Id} {answer : List Id} {result : Database Id} :
      execute caller database transaction statement = some (answer, after, result) →
      Performed caller database statement (.opened transaction) none .lost (result.freed caller)
  | lost : Performed caller database statement .lost none .lost database

end Server

section Program

variable {Id : Type} [LinearOrder Id]

/-- A call as the statements that it sends next. It finishes with a result, or throws, and then returns its client, or
destroys it when it is broken. -/
inductive Program (Id : Type) where
  | finished (result : Option (List Id)) (broken : Bool)
  | query (statement : Statement Id) (next : Option (List Id) → Program Id)

/-- The `finally` block. -/
def unlocking (broken : Bool) (result : Option (List Id)) : Program Id :=
  .query .unlock fun answer => .finished result (broken || answer.isNone)

/-- The `catch` block of a migration's transaction. -/
def rollingBack : Program Id := .query .rollback fun answer => unlocking answer.isNone none

def inTransaction (sql : Sql Id) (row : Change Id) (next : Program Id) : Program Id :=
  .query .start fun
    | none => unlocking false none
    | some _ => .query (.change (.ran sql)) fun
      | none => rollingBack
      | some _ => .query (.change row) fun
        | none => rollingBack
        | some _ => .query .commit fun
          | none => rollingBack
          | some _ => next

/-- The loop over the migrations. One whose file is missing throws. -/
def migrateEach (sql : Id → Sql Id) (row : Id → Change Id) (known : Id → Bool) : List Id → List Id → Program Id
  | [], done => unlocking false (some done)
  | id :: rest, done =>
    if known id then inTransaction (sql id) (row id) (migrateEach sql row known rest (done ++ [id]))
    else unlocking false none

def locked (work : List Id → Program Id) : Program Id :=
  .query .lock fun
    | none => .finished none false
    | some _ => .query .ensureTable fun
      | none => unlocking false none
      | some _ => .query .selectIds fun
        | none => unlocking false none
        | some ids => work ids

def migrateUp (migrations : List Id) : Program Id :=
  locked fun alreadyApplied =>
    migrateEach .up .inserted (fun _ => true) (migrations.filter fun id => decide (id ∉ alreadyApplied)) []

/-- `list.slice(start)`. -/
def sliceFrom (list : List Id) (start : Int) : List Id :=
  list.drop (if start < 0 then (list.length + start).toNat else start.toNat)

def migrateDown (migrations : List Id) (steps : Nat) : Program Id :=
  locked fun appliedIds =>
    migrateEach .down .deleted (fun id => decide (id ∈ migrations)) (sliceFrom appliedIds (-steps)).reverse []

/-- What a caller calls. -/
inductive Request where
  | up
  | down (steps : Nat)
  deriving DecidableEq

def Request.program (migrations : List Id) : Request → Program Id
  | .up => migrateUp migrations
  | .down steps => migrateDown migrations steps

end Program

section System

variable {Id : Type} [LinearOrder Id]

/-- A call, with what was committed when it read the applied ids and whether something failed, which no step looks at. -/
structure Call (Id : Type) where
  program : Program Id
  session : Session Id
  seen : Option (List (Nat × Sql Id))
  failed : Bool

structure System (Id : Type) where
  database : Database Id
  calls : Nat → Call Id

def Request.call (migrations : List Id) (request : Request) : Call Id := ⟨request.program migrations, .opened .idle, none, false⟩

def System.start (migrations : List Id) (applied : Finset Id) (requests : Nat → Request) : System Id :=
  ⟨⟨[], applied, none⟩, fun caller => (requests caller).call migrations⟩

def seenAfter (database : Database Id) (seen : Option (List (Nat × Sql Id))) :
    Statement Id → Option (List Id) → Option (List (Nat × Sql Id))
  | .selectIds, some _ => some database.scripts
  | _, _ => seen

def Call.performed (call : Call Id) (database : Database Id) (statement : Statement Id) (program : Program Id)
    (answer : Option (List Id)) (session : Session Id) : Call Id :=
  ⟨program, session, seenAfter database call.seen statement answer, call.failed || answer.isNone⟩

/-- A step of a call: a statement, or the end of its session, which may come at any time. -/
inductive Step (caller : Nat) : Call Id × Database Id → Call Id × Database Id → Prop
  | statement {call : Call Id} {database result : Database Id} {statement : Statement Id}
      {next : Option (List Id) → Program Id} {answer : Option (List Id)} {session : Session Id} :
      call.program = .query statement next → Performed caller database statement call.session answer session result →
      Step caller (call, database) (call.performed database statement (next answer) answer session, result)
  | disconnected {call : Call Id} {database : Database Id} {transaction : Transaction Id} :
      call.session = .opened transaction →
      Step caller (call, database) ({ call with session := .lost }, database.freed caller)

/-- The systems that some steps of the calls lead to. -/
inductive Reaches (migrations : List Id) (applied : Finset Id) (requests : Nat → Request) : System Id → Prop
  | start : Reaches migrations applied requests (.start migrations applied requests)
  | step {system : System Id} {caller : Nat} {call : Call Id} {database : Database Id} :
      Reaches migrations applied requests system → Step caller (system.calls caller, system.database) (call, database) →
      Reaches migrations applied requests ⟨database, Function.update system.calls caller call⟩

end System

section Stages

variable {Id : Type} [LinearOrder Id] {migrations : List Id} {request : Request}

def Request.sql : Request → Id → Sql Id
  | .up => .up
  | .down _ => .down

def Request.row : Request → Id → Change Id
  | .up => .inserted
  | .down _ => .deleted

def Request.known (migrations : List Id) : Request → Id → Bool
  | .up => fun _ => true
  | .down _ => fun id => decide (id ∈ migrations)

/-- The migrations that the code goes through after it has read the applied ids. -/
def Request.work (migrations ids : List Id) : Request → List Id
  | .up => migrations.filter fun id => decide (id ∉ ids)
  | .down steps => (sliceFrom ids (-steps)).reverse

def Request.each (migrations : List Id) (request : Request) (todo done : List Id) : Program Id :=
  migrateEach request.sql request.row (request.known migrations) todo done

theorem Request.program_eq (migrations : List Id) (request : Request) :
    request.program migrations = locked fun ids => request.each migrations (request.work migrations ids) [] := by
  cases request <;> rfl

/-- Where a call is: the statement that it sends next, and the migration that it works on. -/
inductive Stage (Id : Type) where
  | locking
  | ensuring
  | selecting
  | starting (id : Id) (rest done : List Id)
  | running (id : Id) (rest done : List Id)
  | recording (id : Id) (rest done : List Id)
  | committing (id : Id) (rest done : List Id)
  | rollingBack
  | unlocking (broken : Bool) (result : Option (List Id))
  | finished (result : Option (List Id)) (broken : Bool)

def Request.stage (migrations : List Id) (request : Request) : List Id → List Id → Stage Id
  | [], done => .unlocking false (some done)
  | id :: rest, done => if request.known migrations id then .starting id rest done else .unlocking false none

def Stage.statement (request : Request) : Stage Id → Option (Statement Id)
  | .locking => some .lock
  | .ensuring => some .ensureTable
  | .selecting => some .selectIds
  | .starting _ _ _ => some .start
  | .running id _ _ => some (.change (.ran (request.sql id)))
  | .recording id _ _ => some (.change (request.row id))
  | .committing _ _ _ => some .commit
  | .rollingBack => some .rollback
  | .unlocking _ _ => some .unlock
  | .finished _ _ => none

/-- The stage after a statement that threw. -/
def Stage.thrown : Stage Id → Stage Id
  | .locking => .finished none false
  | .ensuring => .unlocking false none
  | .selecting => .unlocking false none
  | .starting _ _ _ => .unlocking false none
  | .running _ _ _ => .rollingBack
  | .recording _ _ _ => .rollingBack
  | .committing _ _ _ => .rollingBack
  | .rollingBack => .unlocking true none
  | .unlocking _ result => .finished result true
  | .finished result broken => .finished result broken

def Stage.answered (migrations : List Id) (request : Request) (ids : List Id) : Stage Id → Stage Id
  | .locking => .ensuring
  | .ensuring => .selecting
  | .selecting => request.stage migrations (request.work migrations ids) []
  | .starting id rest done => .running id rest done
  | .running id rest done => .recording id rest done
  | .recording id rest done => .committing id rest done
  | .committing id rest done => request.stage migrations rest (done ++ [id])
  | .rollingBack => .unlocking false none
  | .unlocking broken result => .finished result broken
  | .finished result broken => .finished result broken

/-- The program of a call at a stage. -/
inductive Stage.Runs (migrations : List Id) (request : Request) : Stage Id → Program Id → Prop
  | finished (result : Option (List Id)) (broken : Bool) : Runs migrations request (.finished result broken) (.finished result broken)
  | query {stage : Stage Id} {statement : Statement Id} {next : Option (List Id) → Program Id} :
      stage.statement request = some statement → Runs migrations request stage.thrown (next none) →
      (∀ ids, Runs migrations request (stage.answered migrations request ids) (next (some ids))) →
      Runs migrations request stage (.query statement next)

theorem runs_unlocking (broken : Bool) (result : Option (List Id)) :
    Stage.Runs migrations request (.unlocking broken result) (unlocking broken result) := by
  refine .query rfl ?_ fun ids => ?_
  · rw [Option.isNone_none, Bool.or_true]
    exact .finished result true
  · rw [Option.isNone_some, Bool.or_false]
    exact .finished result broken

theorem runs_rollingBack : Stage.Runs migrations request .rollingBack rollingBack :=
  .query rfl (runs_unlocking true none) fun _ => runs_unlocking false none

/-- The loop over the migrations, by induction on those that are left. -/
theorem runs_each (todo done : List Id) :
    Stage.Runs migrations request (request.stage migrations todo done) (request.each migrations todo done) := by
  induction todo generalizing done with
  | nil => exact runs_unlocking false (some done)
  | cons id rest ih =>
    rw [Request.stage, Request.each, migrateEach]
    split
    · refine .query rfl (runs_unlocking false none) fun _ => ?_
      refine .query rfl runs_rollingBack fun _ => ?_
      refine .query rfl runs_rollingBack fun _ => ?_
      exact .query rfl runs_rollingBack fun _ => ih (done ++ [id])
    · exact runs_unlocking false none

theorem runs_program : Stage.Runs migrations request .locking (request.program migrations) := by
  rw [Request.program_eq]
  refine .query rfl (.finished none false) fun _ => ?_
  refine .query rfl (runs_unlocking false none) fun _ => ?_
  exact .query rfl (runs_unlocking false none) fun ids => runs_each _ []

end Stages

section Invariants

variable {Id : Type} [LinearOrder Id] {migrations : List Id} {applied : Finset Id} {request : Request} {caller other : Nat}
  {call : Call Id} {database result : Database Id} {before : List (Nat × Sql Id)} {done todo rest : List Id} {id : Id}

def tagged (caller : Nat) (request : Request) (done : List Id) : List (Nat × Sql Id) := done.map fun id => (caller, request.sql id)

/-- The row that a script stands for. -/
def rowAfter (rows : Finset Id) : Sql Id → Finset Id
  | .up id => insert id rows
  | .down id => rows.erase id

/-- The rows that stand for the scripts that are committed. -/
def rowsAfter (applied : Finset Id) (scripts : List (Nat × Sql Id)) : Finset Id :=
  scripts.foldl (fun rows script => rowAfter rows script.2) applied

/-- The scripts that a call has committed, in one piece after those that it saw. -/
structure Shares (migrations : List Id) (applied : Finset Id) (request : Request) (caller : Nat) (database : Database Id)
    (before : List (Nat × Sql Id)) (done todo : List Id) : Prop where
  apart : ∀ script ∈ before, script.1 ≠ caller
  split : ∃ after, database.scripts = before ++ tagged caller request done ++ after ∧ ∀ script ∈ after, script.1 ≠ caller
  planned : request.work migrations (rowsAfter applied before).sort = done ++ todo

def Untouched (caller : Nat) (database : Database Id) : Prop := ∀ script ∈ database.scripts, script.1 ≠ caller

/-- What a call has committed when it gives its result. -/
def Settles (migrations : List Id) (applied : Finset Id) (request : Request) (caller : Nat) (database : Database Id)
    (failed : Bool) (result : Option (List Id)) : Option (List (Nat × Sql Id)) → Prop
  | none => Untouched caller database ∧ result = none ∧ failed = true
  | some before => ∃ done todo, Shares migrations applied request caller database before done todo ∧
    (∀ ids, result = some ids → ids = done ∧ todo = []) ∧
    (result = none → failed = true ∨ ∃ id rest, todo = id :: rest ∧ request.known migrations id = false)

/-- What a call has committed at a stage. -/
def Stage.Told (migrations : List Id) (applied : Finset Id) (request : Request) (caller : Nat) (database : Database Id)
    (seen : Option (List (Nat × Sql Id))) (failed : Bool) : Stage Id → Prop
  | .locking | .ensuring | .selecting => seen = none ∧ Untouched caller database
  | .starting id rest done | .running id rest done | .recording id rest done | .committing id rest done =>
    ∃ before, seen = some before ∧ Shares migrations applied request caller database before done (id :: rest)
  | .rollingBack => failed = true ∧ ∃ before done todo, seen = some before ∧
    Shares migrations applied request caller database before done todo
  | .unlocking _ result | .finished result _ => Settles migrations applied request caller database failed result seen

/-- The transaction of a call that works, while its session lasts. Nobody else commits then. -/
def Works (request : Request) (caller : Nat) (database : Database Id) (seen : Option (List (Nat × Sql Id))) (session : Session Id)
    (transaction : Transaction Id) (done : List Id) : Prop :=
  ∀ current, session = .opened current → current = transaction ∧ database.lock = some caller ∧
    ∀ before, seen = some before → database.scripts = before ++ tagged caller request done

def Stage.Alive (request : Request) (caller : Nat) (database : Database Id) (seen : Option (List (Nat × Sql Id)))
    (session : Session Id) : Stage Id → Prop
  | .locking => ∀ current, session = .opened current → current = .idle
  | .ensuring | .selecting => Works request caller database seen session .idle []
  | .starting _ _ done => Works request caller database seen session .idle done
  | .running _ _ done => Works request caller database seen session (.active []) done
  | .recording id _ done => Works request caller database seen session (.active [.ran (request.sql id)]) done
  | .committing id _ done => Works request caller database seen session (.active [.ran (request.sql id), request.row id]) done
  | _ => True

/-- What a step of a call does to the others. -/
structure Moves (caller : Nat) (database result : Database Id) : Prop where
  scripts : ∃ more, result.scripts = database.scripts ++ more ∧ ∀ script ∈ more, script.1 = caller
  held : ∀ other, other ≠ caller → database.lock = some other → result.lock = some other ∧ result.scripts = database.scripts

omit [LinearOrder Id] in
theorem freed_scripts (caller : Nat) (database : Database Id) : (database.freed caller).scripts = database.scripts ∧
    (database.freed caller).rows = database.rows := by
  unfold Database.freed
  split <;> exact ⟨rfl, rfl⟩

omit [LinearOrder Id] in
theorem Moves.same : Moves caller database database :=
  ⟨⟨[], (List.append_nil _).symm, fun _ listed => absurd listed List.not_mem_nil⟩, fun _ _ held => ⟨held, rfl⟩⟩

theorem Moves.freed (moves : Moves caller database result) : Moves caller database (result.freed caller) := by
  have same := (freed_scripts caller result).1
  refine ⟨by rw [same]; exact moves.scripts, fun other different held => ?_⟩
  obtain ⟨lock, scripts⟩ := moves.held other different held
  refine ⟨?_, same.trans scripts⟩
  rw [Database.freed, if_neg, lock]
  rw [lock]
  exact fun equal => different (Option.some.inj equal)

variable {seen : Option (List (Nat × Sql Id))} {session : Session Id} {failed : Bool} {stage : Stage Id}

omit [LinearOrder Id] in
theorem Untouched.moved (untouched : Untouched other database) (moves : Moves caller database result) (different : other ≠ caller) :
    Untouched other result := by
  obtain ⟨more, split, mine⟩ := moves.scripts
  intro script listed
  rw [split] at listed
  rcases List.mem_append.mp listed with old | new
  · exact untouched script old
  · exact fun same => different (same.symm.trans (mine script new))

theorem Shares.moved (shares : Shares migrations applied request other database before done todo)
    (moves : Moves caller database result) (different : other ≠ caller) :
    Shares migrations applied request other result before done todo := by
  obtain ⟨more, split, mine⟩ := moves.scripts
  obtain ⟨after, earlier, apart⟩ := shares.split
  refine ⟨shares.apart, ⟨after ++ more, ?_, fun script listed => ?_⟩, shares.planned⟩
  · rw [split, earlier, List.append_assoc]
  · rcases List.mem_append.mp listed with old | new
    · exact apart script old
    · exact fun same => different (same.symm.trans (mine script new))

theorem Settles.moved {answer : Option (List Id)} (settles : Settles migrations applied request other database failed answer seen)
    (moves : Moves caller database result) (different : other ≠ caller) :
    Settles migrations applied request other result failed answer seen := by
  cases seen with
  | none => exact ⟨settles.1.moved moves different, settles.2⟩
  | some before =>
    obtain ⟨done, todo, shares, rest⟩ := settles
    exact ⟨done, todo, shares.moved moves different, rest⟩

/-- A step of another call leaves what a call has committed as it is. -/
theorem Stage.Told.moved (told : stage.Told migrations applied request other database seen failed)
    (moves : Moves caller database result) (different : other ≠ caller) :
    stage.Told migrations applied request other result seen failed := by
  cases stage with
  | locking | ensuring | selecting => exact ⟨told.1, told.2.moved moves different⟩
  | starting | running | recording | committing =>
    obtain ⟨before, known, shares⟩ := told
    exact ⟨before, known, shares.moved moves different⟩
  | rollingBack =>
    obtain ⟨threw, before, done, todo, known, shares⟩ := told
    exact ⟨threw, before, done, todo, known, shares.moved moves different⟩
  | unlocking | finished => exact Settles.moved told moves different

omit [LinearOrder Id] in
theorem Works.moved {transaction : Transaction Id} (works : Works request other database seen session transaction done)
    (moves : Moves caller database result) (different : other ≠ caller) : Works request other result seen session transaction done := by
  intro current lasts
  obtain ⟨same, held, scripts⟩ := works current lasts
  obtain ⟨lock, unchanged⟩ := moves.held other different held
  exact ⟨same, lock, fun before known => unchanged.trans (scripts before known)⟩

theorem Stage.Alive.moved (alive : stage.Alive request other database seen session) (moves : Moves caller database result)
    (different : other ≠ caller) : stage.Alive request other result seen session := by
  cases stage with
  | locking => exact alive
  | rollingBack | unlocking | finished => trivial
  | ensuring | selecting | starting | running | recording | committing => exact Works.moved alive moves different

omit [LinearOrder Id] in
theorem Stage.Alive.lost (stage : Stage Id) : stage.Alive request caller database seen .lost := by
  cases stage with
  | rollingBack | unlocking | finished => trivial
  | _ => exact fun _ lasts => nomatch lasts

theorem Shares.same (shares : Shares migrations applied request caller database before done todo)
    (same : result.scripts = database.scripts) : Shares migrations applied request caller result before done todo :=
  ⟨shares.apart, by rw [same]; exact shares.split, shares.planned⟩

theorem Settles.same {answer : Option (List Id)} (settles : Settles migrations applied request caller database failed answer seen)
    (same : result.scripts = database.scripts) : Settles migrations applied request caller result failed answer seen := by
  cases seen with
  | none => exact ⟨fun script listed => settles.1 script (same ▸ listed), settles.2⟩
  | some before =>
    obtain ⟨done, todo, shares, rest⟩ := settles
    exact ⟨done, todo, shares.same same, rest⟩

theorem Stage.Told.same (told : stage.Told migrations applied request caller database seen failed)
    (same : result.scripts = database.scripts) : stage.Told migrations applied request caller result seen failed := by
  cases stage with
  | locking | ensuring | selecting => exact ⟨told.1, fun script listed => told.2 script (same ▸ listed)⟩
  | starting | running | recording | committing =>
    obtain ⟨before, known, shares⟩ := told
    exact ⟨before, known, shares.same same⟩
  | rollingBack =>
    obtain ⟨threw, before, done, todo, known, shares⟩ := told
    exact ⟨threw, before, done, todo, known, shares.same same⟩
  | unlocking | finished => exact Settles.same told same

theorem Settles.threw {answer : Option (List Id)} (settles : Settles migrations applied request caller database failed answer seen)
    (same : result.scripts = database.scripts) : Settles migrations applied request caller result true answer seen := by
  cases seen with
  | none => exact ⟨fun script listed => settles.1 script (same ▸ listed), settles.2.1, rfl⟩
  | some before =>
    obtain ⟨done, todo, shares, returned, -⟩ := settles
    exact ⟨done, todo, shares.same same, returned, fun _ => .inl rfl⟩

/-- A statement that threw, and committed nothing. -/
theorem Stage.Told.threw (told : stage.Told migrations applied request caller database seen failed)
    (same : result.scripts = database.scripts) : stage.thrown.Told migrations applied request caller result seen true := by
  cases stage with
  | locking | ensuring | selecting =>
    obtain ⟨rfl, untouched⟩ := told
    exact ⟨fun script listed => untouched script (same ▸ listed), rfl, rfl⟩
  | starting id rest done =>
    obtain ⟨before, rfl, shares⟩ := told
    exact ⟨done, id :: rest, shares.same same, nofun, fun _ => .inl rfl⟩
  | running id rest done | recording id rest done | committing id rest done =>
    obtain ⟨before, rfl, shares⟩ := told
    exact ⟨rfl, before, done, id :: rest, rfl, shares.same same⟩
  | rollingBack =>
    obtain ⟨-, before, done, todo, rfl, shares⟩ := told
    exact ⟨done, todo, shares.same same, nofun, fun _ => .inl rfl⟩
  | unlocking | finished => exact Settles.threw told same

omit [LinearOrder Id] in
theorem Stage.thrown_alive (stage : Stage Id) : stage.thrown.Alive request caller database seen session := by
  cases stage <;> trivial

/-- The next migration of the loop, or its end. -/
theorem stage_holds {done todo : List Id} (failed : Bool) (shares : Shares migrations applied request caller database before done todo)
    (works : Works request caller database (some before) session .idle done) :
    (request.stage migrations todo done).Told migrations applied request caller database (some before) failed ∧
      (request.stage migrations todo done).Alive request caller database (some before) session := by
  cases todo with
  | nil => exact ⟨⟨done, [], shares, fun ids same => ⟨(Option.some.inj same).symm, rfl⟩, nofun⟩, trivial⟩
  | cons id rest =>
    rw [Request.stage]
    by_cases known : request.known migrations id = true
    · rw [if_pos known]
      exact ⟨⟨before, rfl, shares⟩, works⟩
    · rw [if_neg known]
      exact ⟨⟨done, id :: rest, shares, nofun, fun _ => .inr ⟨id, rest, rfl, Bool.eq_false_iff.mpr known⟩⟩, trivial⟩

theorem rowsAfter_append (scripts : List (Nat × Sql Id)) (script : Nat × Sql Id) :
    rowsAfter applied (scripts ++ [script]) = rowAfter (rowsAfter applied scripts) script.2 := by
  rw [rowsAfter, List.foldl_append]
  rfl

/-- A migration's script and its row are committed together. -/
theorem committed_apply (caller : Nat) (database : Database Id) (request : Request) (id : Id) :
    [.ran (request.sql id), request.row id].foldl (Database.apply caller) database =
      ⟨database.scripts ++ [(caller, request.sql id)], rowAfter database.rows (request.sql id), database.lock⟩ := by
  cases request <;> rfl

/-- What an accepted statement of a stage leads to, and what is committed when its answer is lost. -/
structure Executed (migrations : List Id) (applied : Finset Id) (request : Request) (caller : Nat) (database result : Database Id)
    (seen : Option (List (Nat × Sql Id))) (failed : Bool) (statement : Statement Id) (after : Transaction Id) (answer : List Id)
    (stage : Stage Id) : Prop where
  moves : Moves caller database result
  rows : result.rows = rowsAfter applied result.scripts
  told : (stage.answered migrations request answer).Told migrations applied request caller result
    (seenAfter database seen statement (some answer)) failed
  alive : (stage.answered migrations request answer).Alive request caller result
    (seenAfter database seen statement (some answer)) (.opened after)
  threw : stage.thrown.Told migrations applied request caller result seen true

/-- The commit of a migration. -/
theorem executed_commit {rest : List Id} (shares : Shares migrations applied request caller database before done (id :: rest))
    (held : database.lock = some caller) (scripts : database.scripts = before ++ tagged caller request done)
    (rows : database.rows = rowsAfter applied database.scripts)
    (committed : result = ⟨database.scripts ++ [(caller, request.sql id)], rowAfter database.rows (request.sql id), database.lock⟩) :
    Executed migrations applied request caller database result (some before) failed .commit .idle [] (.committing id rest done) := by
  have grown : result.scripts = before ++ tagged caller request (done ++ [id]) := by
    rw [committed, scripts, tagged, tagged, List.map_append, List.append_assoc]
    rfl
  have shares' : Shares migrations applied request caller result before (done ++ [id]) rest := by
    refine ⟨shares.apart, ⟨[], by rw [grown, List.append_nil], fun _ listed => absurd listed List.not_mem_nil⟩, ?_⟩
    rw [shares.planned, List.append_assoc]
    rfl
  have works : Works request caller result (some before) (.opened .idle) .idle (done ++ [id]) := by
    intro current lasts
    cases lasts
    refine ⟨rfl, by rw [committed]; exact held, fun earlier known => ?_⟩
    cases known
    exact grown
  obtain ⟨told, alive⟩ := stage_holds failed shares' works
  refine ⟨⟨⟨_, by rw [committed], fun script listed => ?_⟩, fun other different mine => ?_⟩, ?_, told, alive,
    rfl, before, done ++ [id], rest, rfl, shares'⟩
  · rw [List.mem_singleton.mp listed]
  · rw [held] at mine
    exact absurd (Option.some.inj mine).symm different
  · rw [committed, rows, rowsAfter_append]

/-- A statement that changes nothing that others see. -/
theorem Executed.quiet {after : Transaction Id} {statement : Statement Id} {answer : List Id}
    (told : stage.Told migrations applied request caller database seen failed) (rows : database.rows = rowsAfter applied database.scripts)
    (moves : Moves caller database result) (same : result.scripts = database.scripts ∧ result.rows = database.rows)
    (told' : (stage.answered migrations request answer).Told migrations applied request caller result
      (seenAfter database seen statement (some answer)) failed)
    (alive' : (stage.answered migrations request answer).Alive request caller result
      (seenAfter database seen statement (some answer)) (.opened after)) :
    Executed migrations applied request caller database result seen failed statement after answer stage :=
  ⟨moves, by rw [same.1, same.2]; exact rows, told', alive', told.threw same.1⟩

theorem executed {transaction after : Transaction Id} {statement : Statement Id} {answer : List Id}
    (sends : stage.statement request = some statement) (told : stage.Told migrations applied request caller database seen failed)
    (alive : stage.Alive request caller database seen (.opened transaction)) (rows : database.rows = rowsAfter applied database.scripts)
    (served : execute caller database transaction statement = some (answer, after, result)) :
    Executed migrations applied request caller database result seen failed statement after answer stage := by
  have works {current : Transaction Id} {done : List Id}
      (alive : Works request caller database seen (.opened transaction) current done) (next : Transaction Id) :
      transaction = current ∧ Works request caller database seen (.opened next) next done := by
    obtain ⟨same, held, scripts⟩ := alive transaction rfl
    refine ⟨same, fun found lasts => ?_⟩
    cases lasts
    exact ⟨rfl, held, scripts⟩
  cases stage with
  | locking =>
    cases sends
    have idle : transaction = .idle := alive transaction rfl
    rw [execute] at served
    split at served
    · next free =>
        cases served
        refine .quiet told rows ⟨⟨[], (List.append_nil _).symm, fun _ listed => absurd listed List.not_mem_nil⟩, ?_⟩ ⟨rfl, rfl⟩
          told ?_
        · intro other different held
          rw [free] at held
          cases held
        · intro current lasts
          cases lasts
          refine ⟨idle, rfl, fun before known => ?_⟩
          obtain ⟨rfl, -⟩ := told
          cases known
    · cases served
  | ensuring =>
    cases sends
    cases served
    exact .quiet told rows .same ⟨rfl, rfl⟩ told alive
  | selecting =>
    cases sends
    cases served
    obtain ⟨same, held, -⟩ := alive transaction rfl
    have shares : Shares migrations applied request caller database database.scripts []
        (request.work migrations database.rows.sort) :=
      ⟨told.2, ⟨[], by rw [tagged, List.map_nil, List.append_nil, List.append_nil],
        fun _ listed => absurd listed List.not_mem_nil⟩, by rw [← rows]; rfl⟩
    have onward : Works request caller database (some database.scripts) (.opened transaction) .idle [] := by
      intro current lasts
      cases lasts
      refine ⟨same, held, fun before known => ?_⟩
      cases known
      exact (List.append_nil _).symm
    obtain ⟨told', alive'⟩ := stage_holds failed shares onward
    exact .quiet told rows .same ⟨rfl, rfl⟩ told' alive'
  | starting id rest done =>
    cases sends
    cases served
    exact .quiet told rows .same ⟨rfl, rfl⟩ told (works alive _).2
  | running id rest done =>
    cases sends
    obtain ⟨rfl, onward⟩ := works alive (.active [.ran (request.sql id)])
    cases served
    exact .quiet told rows .same ⟨rfl, rfl⟩ told onward
  | recording id rest done =>
    cases sends
    obtain ⟨rfl, onward⟩ := works alive (.active [.ran (request.sql id), request.row id])
    cases served
    exact .quiet told rows .same ⟨rfl, rfl⟩ told onward
  | committing id rest done =>
    cases sends
    obtain ⟨rfl, held, scripts⟩ := alive transaction rfl
    obtain ⟨before, rfl, shares⟩ := told
    rw [execute, committed_apply] at served
    cases served
    exact executed_commit shares held (scripts before rfl) rows rfl
  | rollingBack =>
    cases sends
    cases served
    have settles : Settles migrations applied request caller database failed none seen := by
      obtain ⟨rfl, before, done, todo, rfl, shares⟩ := told
      exact ⟨done, todo, shares, nofun, fun _ => .inl rfl⟩
    exact .quiet told rows .same ⟨rfl, rfl⟩ settles trivial
  | unlocking broken result =>
    cases sends
    cases served
    exact .quiet told rows Moves.same.freed (freed_scripts caller database) (Settles.same told (freed_scripts caller database).1) trivial
  | finished => cases sends

/-- Where a call is in a system, and what it has committed. -/
structure Call.Kept (migrations : List Id) (applied : Finset Id) (request : Request) (caller : Nat) (database : Database Id)
    (call : Call Id) (stage : Stage Id) : Prop where
  runs : stage.Runs migrations request call.program
  told : stage.Told migrations applied request caller database call.seen call.failed
  alive : stage.Alive request caller database call.seen call.session

theorem Call.Kept.moved (kept : call.Kept migrations applied request other database stage) (moves : Moves caller database result)
    (different : other ≠ caller) : call.Kept migrations applied request other result stage :=
  ⟨kept.runs, kept.told.moved moves different, kept.alive.moved moves different⟩

omit [LinearOrder Id] in
theorem seenAfter_none (database : Database Id) (seen : Option (List (Nat × Sql Id))) (statement : Statement Id) :
    seenAfter database seen statement none = seen := by
  cases statement <;> rfl

/-- A step of a call: it is at its next stage, and the rows still stand for the scripts. -/
theorem Call.Kept.step {call' : Call Id} (kept : call.Kept migrations applied request caller database stage)
    (rows : database.rows = rowsAfter applied database.scripts) (step : Step caller (call, database) (call', result)) :
    Moves caller database result ∧ result.rows = rowsAfter applied result.scripts ∧
      ∃ stage, call'.Kept migrations applied request caller result stage := by
  obtain ⟨runs, told, alive⟩ := kept
  cases step with
  | disconnected lasts =>
    obtain ⟨scripts, rows'⟩ := freed_scripts caller database
    exact ⟨Moves.same.freed, by rw [scripts, rows']; exact rows, stage, runs, told.same scripts, .lost stage⟩
  | @statement _ _ _ statement next _ _ sends performed =>
    rw [sends] at runs
    cases runs with
    | query at' threw answered =>
      -- a statement that threw and committed nothing
      have nothing (session : Session Id) :
          (call.performed database statement (next none) none session).Kept migrations applied request caller database
            stage.thrown := by
        refine ⟨threw, ?_, stage.thrown_alive⟩
        rw [Call.performed, seenAfter_none]
        dsimp only [Option.isNone_none]
        rw [Bool.or_true]
        exact told.threw rfl
      generalize shown : call.session = current at performed
      cases performed with
      | @answered transaction after answer _ served =>
        rw [shown] at alive
        obtain ⟨moves, rows', told', alive', -⟩ := executed at' told alive rows served
        refine ⟨moves, rows', stage.answered migrations request answer, answered answer, ?_, alive'⟩
        rw [Call.performed]
        dsimp only [Option.isNone_some]
        rw [Bool.or_false]
        exact told'
      | refused => exact ⟨.same, rows, _, nothing _⟩
      | @unanswered transaction after answer result served =>
        rw [shown] at alive
        obtain ⟨moves, rows', -, -, threw'⟩ := executed at' told alive rows served
        obtain ⟨scripts, same⟩ := freed_scripts caller result
        refine ⟨moves.freed, by rw [scripts, same]; exact rows', stage.thrown, threw, ?_, stage.thrown_alive⟩
        rw [Call.performed, seenAfter_none]
        dsimp only [Option.isNone_none]
        rw [Bool.or_true]
        exact threw'.same scripts
      | lost => exact ⟨.same, rows, _, nothing _⟩

/-- Every system that is reached keeps where its calls are, by induction on the steps. -/
theorem reaches_kept {requests : Nat → Request} {system : System Id} (reached : Reaches migrations applied requests system) :
    system.database.rows = rowsAfter applied system.database.scripts ∧
      ∀ caller, ∃ stage, (system.calls caller).Kept migrations applied (requests caller) caller system.database stage := by
  induction reached with
  | start =>
    refine ⟨rfl, fun caller => ⟨.locking, runs_program, ⟨rfl, fun _ listed => absurd listed List.not_mem_nil⟩, ?_⟩⟩
    intro current lasts
    cases lasts
    rfl
  | @step system caller call database reached step ih =>
    obtain ⟨rows, kept⟩ := ih
    obtain ⟨stage, mine⟩ := kept caller
    obtain ⟨moves, rows', onward⟩ := mine.step rows step
    refine ⟨rows', fun other => ?_⟩
    dsimp only
    by_cases same : other = caller
    · subst same
      rw [Function.update_self]
      exact onward
    · rw [Function.update_of_ne same]
      obtain ⟨stage, others⟩ := kept other
      exact ⟨stage, others.moved moves same⟩

end Invariants

section Results

variable {Id : Type} [LinearOrder Id] {migrations : List Id} {applied : Finset Id} {request : Request} {caller : Nat}
  {call : Call Id} {database : Database Id}

/-- The migrations that a request asks for, of the rows that are there: the pending ones in order, or the last of the applied
ones, the latest first. -/
def Request.asked (migrations : List Id) (rows : Finset Id) : Request → List Id
  | .up => migrations.filter fun id => decide (id ∉ rows)
  | .down steps => rows.sort.reverse.take steps

/-- The code goes through what is asked, unless no step is asked for and something is applied. -/
theorem work_asked_iff (request : Request) (migrations : List Id) (rows : Finset Id) :
    request.work migrations rows.sort = request.asked migrations rows ↔ ¬(request = .down 0 ∧ rows.Nonempty) := by
  cases request with
  | up =>
    refine ⟨fun _ both => (nomatch both.1), fun _ => ?_⟩
    rw [Request.work, Request.asked]
    refine List.filter_congr fun id _ => ?_
    simp only [Finset.mem_sort]
  | down steps =>
    rw [Request.work, Request.asked, sliceFrom]
    cases steps with
    | zero =>
      have whole : rows.sort.drop (if -((0 : Nat) : Int) < 0 then (rows.sort.length + -((0 : Nat) : Int)).toNat
          else (-((0 : Nat) : Int)).toNat) = rows.sort := by
        rw [if_neg (by decide)]
        rfl
      rw [whole, List.take_zero, List.reverse_eq_nil_iff]
      constructor
      · rintro none' ⟨-, id, listed⟩
        rw [← Finset.mem_sort (· ≤ ·), none'] at listed
        cases listed
      · intro not
        rw [List.eq_nil_iff_forall_not_mem]
        exact fun id listed => not ⟨rfl, id, (Finset.mem_sort (· ≤ ·)).mp listed⟩
    | succ steps =>
      refine ⟨fun _ both => (nomatch both.1), fun _ => ?_⟩
      have start : (if -((steps + 1 : Nat) : Int) < 0 then (rows.sort.length + -((steps + 1 : Nat) : Int)).toNat
          else (-((steps + 1 : Nat) : Int)).toNat) = rows.sort.length - (steps + 1) := by
        rw [if_pos (by omega)]
        omega
      rw [start, List.take_reverse]

/-- What a call did to the database so far. -/
structure Served (migrations : List Id) (applied : Finset Id) (request : Request) (caller : Nat) (database : Database Id)
    (call : Call Id) : Prop where
  unread : call.seen = none → (∀ script ∈ database.scripts, script.1 ≠ caller) ∧
    ∀ ids broken, call.program ≠ .finished (some ids) broken
  read : ∀ before, call.seen = some before → ∃ done todo after,
    database.scripts = before ++ done.map (fun id => (caller, request.sql id)) ++ after ∧
    (∀ script ∈ before ++ after, script.1 ≠ caller) ∧
    (done ++ todo = request.asked migrations (rowsAfter applied before) ↔
      ¬(request = .down 0 ∧ (rowsAfter applied before).Nonempty)) ∧
    (∀ ids broken, call.program = .finished (some ids) broken → ids = done ∧ todo = []) ∧
    (∀ broken, call.program = .finished none broken → call.failed = true ∨ ∃ id rest, todo = id :: rest ∧ id ∉ migrations)

theorem told_untouched {stage : Stage Id} {failed : Bool}
    (told : stage.Told migrations applied request caller database none failed) : Untouched caller database := by
  cases stage with
  | locking | ensuring | selecting => exact told.2
  | starting | running | recording | committing =>
    obtain ⟨_, known, _⟩ := told
    cases known
  | rollingBack =>
    obtain ⟨_, _, _, _, known, _⟩ := told
    cases known
  | unlocking | finished => exact told.1

theorem told_shares {stage : Stage Id} {failed : Bool} {before : List (Nat × Sql Id)}
    (told : stage.Told migrations applied request caller database (some before) failed) :
    ∃ done todo, Shares migrations applied request caller database before done todo ∧
      (∀ ids broken, stage = .finished (some ids) broken → ids = done ∧ todo = []) ∧ (∀ broken, stage = .finished none broken →
        failed = true ∨ ∃ id rest, todo = id :: rest ∧ request.known migrations id = false) := by
  cases stage with
  | locking | ensuring | selecting => cases told.1
  | starting | running | recording | committing =>
    obtain ⟨_, known, shares⟩ := told
    cases known
    exact ⟨_, _, shares, nofun, nofun⟩
  | rollingBack =>
    obtain ⟨_, _, _, _, known, shares⟩ := told
    cases known
    exact ⟨_, _, shares, nofun, nofun⟩
  | unlocking broken result =>
    obtain ⟨done, todo, shares, -⟩ := told
    exact ⟨done, todo, shares, nofun, nofun⟩
  | finished result broken =>
    obtain ⟨done, todo, shares, returned, threw⟩ := told
    refine ⟨done, todo, shares, fun ids broken same => ?_, fun broken same => ?_⟩
    · cases same
      exact returned ids rfl
    · cases same
      exact threw rfl

theorem runs_finished {stage : Stage Id} {result : Option (List Id)} {broken : Bool}
    (runs : stage.Runs migrations request (.finished result broken)) : stage = .finished result broken := by
  cases runs
  rfl

theorem known_false {id : Id} (missing : request.known migrations id = false) : id ∉ migrations := by
  cases request with
  | up => cases missing
  | down steps => exact of_decide_eq_false missing

theorem kept_served {stage : Stage Id} (kept : call.Kept migrations applied request caller database stage) :
    Served migrations applied request caller database call := by
  obtain ⟨runs, told, -⟩ := kept
  refine ⟨fun unread => ?_, fun before seen => ?_⟩
  · rw [unread] at told
    refine ⟨told_untouched told, fun ids broken same => ?_⟩
    rw [same] at runs
    rw [runs_finished runs] at told
    cases told.2.1
  · rw [seen] at told
    obtain ⟨done, todo, shares, returned, threw⟩ := told_shares told
    obtain ⟨after, split, apart⟩ := shares.split
    refine ⟨done, todo, after, split, fun script listed => ?_, ?_, fun ids broken same => ?_, fun broken same => ?_⟩
    · exact (List.mem_append.mp listed).elim (shares.apart script) (apart script)
    · rw [← shares.planned]
      exact work_asked_iff request migrations _
    · rw [same] at runs
      exact returned ids broken (runs_finished runs)
    · rw [same] at runs
      refine (threw broken (runs_finished runs)).imp id fun ⟨missing, rest, next, unknown⟩ => ?_
      exact ⟨missing, rest, next, known_false unknown⟩

/-- In every system that is reached, the rows stand for the scripts that are committed, and each call has committed, in one
piece, the first of the migrations that its code goes through. They are the ones that it was asked for unless it was asked
for no step while something was applied. -/
theorem migrations_exact {requests : Nat → Request} {system : System Id} (reached : Reaches migrations applied requests system) :
    system.database.rows = rowsAfter applied system.database.scripts ∧
      ∀ caller, Served migrations applied (requests caller) caller system.database (system.calls caller) := by
  obtain ⟨rows, kept⟩ := reaches_kept reached
  refine ⟨rows, fun caller => ?_⟩
  obtain ⟨stage, mine⟩ := kept caller
  exact kept_served mine

/-- A call that works alone, on one migration, with an answer to each statement. -/
theorem reaches_alone {id : Id} (one : request.work migrations applied.sort = [id]) (known : request.known migrations id = true) :
    Reaches migrations applied (fun _ => request) ⟨⟨[(0, request.sql id)], rowAfter applied (request.sql id), none⟩,
      Function.update (fun _ => request.call migrations) 0 ⟨.finished (some [id]) false, .opened .idle, some [], false⟩⟩ := by
  have on {call call' : Call Id} {database database' : Database Id}
      (reached : Reaches migrations applied (fun _ => request) ⟨database, Function.update (fun _ => request.call migrations) 0 call⟩)
      (step : Step 0 (call, database) (call', database')) :
      Reaches migrations applied (fun _ => request) ⟨database', Function.update (fun _ => request.call migrations) 0 call'⟩ := by
    have mine : Step 0 (Function.update (fun _ => request.call migrations) 0 call 0, database) (call', database') := by
      rw [Function.update_self]
      exact step
    have next := Reaches.step reached mine
    rwa [Function.update_idem] at next
  have begun : Reaches migrations applied (fun _ => request)
      ⟨⟨[], applied, none⟩, Function.update (fun _ => request.call migrations) 0 (request.call migrations)⟩ := by
    rw [Function.update_eq_self_iff.mpr rfl]
    exact .start
  have locked := on begun (.statement (Request.program_eq migrations request) (.answered rfl))
  have ensured := on locked (.statement rfl (.answered rfl))
  have selected := on ensured (.statement rfl (.answered rfl))
  have works : request.each migrations (request.work migrations applied.sort) [] =
      inTransaction (request.sql id) (request.row id) (request.each migrations [] [id]) := by
    rw [one]
    exact if_pos known
  have started := on selected (.statement works (.answered rfl))
  have ran := on started (.statement rfl (.answered rfl))
  have recorded := on ran (.statement rfl (.answered rfl))
  have together := committed_apply 0 (⟨[], applied, some 0⟩ : Database Id) request id
  have committed := on recorded (.statement rfl
    (.answered (congrArg (fun result => some (([] : List Id), Transaction.idle, result)) together)))
  have unlocked := on committed (.statement rfl (.answered rfl))
  exact unlocked

theorem migrations_exact_one : ∃ system : System Nat, Reaches [1] ∅ (fun _ => .up) system ∧
    system.database.rows = {1} ∧ (system.calls 0).program = .finished (some [1]) false ∧
    ∀ caller, Served [1] ∅ .up caller system.database (system.calls caller) := by
  have reached : Reaches [1] ∅ (fun _ => .up) _ := reaches_alone (by rw [Finset.sort_empty]; rfl) rfl
  obtain ⟨-, served⟩ := migrations_exact reached
  exact ⟨_, reached, rfl, rfl, served⟩

/-- A call that is asked for no step reverts the migration that is applied. -/
theorem noSteps_reverted : ¬∀ (migrations : List Nat) (applied : Finset Nat) (requests : Nat → Request) (system : System Nat),
    Reaches migrations applied requests system → ∀ caller before ids broken, (system.calls caller).seen = some before →
      (system.calls caller).program = .finished (some ids) broken →
      ids = (requests caller).asked migrations (rowsAfter applied before) := by
  intro exact'
  have reached : Reaches [1] {1} (fun _ => .down 0) _ := reaches_alone (by rw [Finset.sort_singleton]; rfl) rfl
  have reverted : [1] = [] := exact' [1] {1} _ _ reached 0 [] [1] false rfl rfl
  cases reverted

end Results

end DurableExecution.Db

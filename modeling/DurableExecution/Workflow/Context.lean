import DurableExecution.Workflow.CommandMatcher

/-
This file models the interface a workflow is written against, and the types of
the code that uses it.
-/

namespace DurableExecution.Workflow

open EventLoop

structure ChildOptions where
  parentClosePolicy : Option ParentClosePolicy
  runTimeoutMs : Option JsNumber
  executionTimeoutMs : Option JsNumber

/-- A query handler reads the state of the workflow. -/
abbrev QueryHandler (H : Type) := H → JsValue → Except JsValue JsValue

/-- The calls of a `WorkflowContext`. The tasks of `all` and `allSettled` and the
compensation of `onCancel` are the callbacks of the call. -/
inductive ContextCall (H : Type) where
  | step (stepType : String) (input : JsValue)
  | sleep (durationMs : JsNumber)
  | waitForSignal (signalName : String)
  | select (branches : List PromiseId)
  | setQueryHandler (queryName : String) (handler : QueryHandler H)
  | onCancel
  | startChild (workflowType : String) (input : JsValue) (options : ChildOptions)
  | executeChild (workflowType : String) (input : JsValue) (options : ChildOptions)
  | all (taskCount : Nat) (concurrency : Option JsNumber)
  | allSettled (taskCount : Nat) (concurrency : Option JsNumber)
  | continueAsNew (input : JsValue)
  | patched (patchId : String)
  | deprecatePatch (patchId : String)
  | now
  | random
  | uuid

/-- The context a call goes through: the workflow's own or the one its compensations get. -/
inductive ContextKind where
  | workflow
  | compensation
  deriving DecidableEq

structure Operation (H : Type) where
  context : ContextKind
  call : ContextCall H

/-- Workflow code keeps its mutable variables in a heap of type `H`. -/
abbrev WorkflowCode (H : Type) := Code H (Operation H) JsValue

/-- `await` on a call that returns a promise or throws, in an asynchronous function. -/
def awaitCall {H : Type} (operation : Operation H) (suspended : WorkflowCode H)
    (next : Except JsValue JsValue → WorkflowCode H) : WorkflowCode H :=
  .call operation (fun _ => .finish (.ok .undefined)) fun answer =>
    match answer with
    | .ok (.promise target) => .react target next suspended
    | answer => next answer

/-- A deterministic workflow function; its code returns the promise of the run's result. -/
structure WorkflowHandler (H : Type) where
  heap : H
  body : JsValue → WorkflowCode H

/-- The numbers and ids of one run, by how many were drawn before. -/
structure SeededRandomSource where
  random : Nat → JsNumber
  uuid : Nat → String

/-- What a decision needs beyond the workflow and its history.
`clock` is indexed by how often it was read before. -/
structure DecisionLoopOptions where
  clock : Nat → Instant
  random : SeededRandomSource
  triggeredAt : Option Instant
  maxChildren : Option Nat
  historyWarningThreshold : Option Nat
  buildId : Option String

def defaultMaxChildren : Nat := 1000

def DecisionLoopOptions.childLimit (options : DecisionLoopOptions) : Nat :=
  options.maxChildren.getD defaultMaxChildren

inductive ParallelMode where
  | all
  | allSettled
  deriving DecidableEq

/-- The locals of one call of `runParallel`. -/
structure ParallelState (H : Type) where
  result : PromiseId
  mode : ParallelMode
  taskCount : Nat
  tasks : Nat → WorkflowCode H
  limit : Nat
  next : Nat
  settled : Nat
  running : List (Nat × PromiseId)
  outcomes : List (Nat × Except JsValue JsValue)

/-- The suspended functions of the engine. -/
inductive Resumption (H : Type) where
  | handlerSettled
  | chosen (state : ParallelState H)
  | taskSettled (state : ParallelState H) (index : Nat)
  | allDone (result : PromiseId)
  | selected (result : PromiseId) (winner : Nat)
  | compensated (remaining : Nat)

/-- What the engine remembers about a promise it handed out. -/
structure WaitTag where
  completionPosition : Option Nat
  cancelled : Bool

instance : Inhabited WaitTag := ⟨⟨none, false⟩⟩

/-- A wait of the workflow, named as its command or its signal is. -/
inductive Wait where
  | step (stepId : String)
  | timer (timerId : String)
  | signal (signalName : String) (number : Nat)
  | child (childId : String)
  deriving DecidableEq

/-- The outcome with which an event ends a step. -/
def stepOutcome (stepId stepType : String) : WorkflowEvent → Option (Except JsValue JsValue)
  | .stepCompleted id result => if id = stepId then some (.ok result) else none
  | .stepFailed id error exhausted =>
    if id = stepId then
      some (.error (if exhausted = some true then
        stepFailedError stepId stepType (reconstructError error) else reconstructError error))
    else none
  | _ => none

def timerOutcome (timerId : String) : WorkflowEvent → Option (Except JsValue JsValue)
  | .timerFired id => if id = timerId then some (.ok .undefined) else none
  | _ => none

def childOutcome (childId : String) : WorkflowEvent → Option (Except JsValue JsValue)
  | .childCompleted id result => if id = childId then some (.ok result) else none
  | .childFailed id error => if id = childId then some (.error (reconstructError error)) else none
  | _ => none

def signalOutcome (signalName : String) : WorkflowEvent → Option (Except JsValue JsValue)
  | .signalReceived name payload => if name = signalName then some (.ok payload) else none
  | _ => none

/-- The place and outcome of the event that comes after `skip` others of its kind. -/
def nthOutcome (outcomeOf : WorkflowEvent → Option (Except JsValue JsValue)) :
    (skip index : Nat) → List WorkflowEvent → Option (Nat × Except JsValue JsValue)
  | _, _, [] => none
  | skip, index, event :: rest =>
    match outcomeOf event, skip with
    | some outcome, 0 => some (index, outcome)
    | some _, skip + 1 => nthOutcome outcomeOf skip (index + 1) rest
    | none, skip => nthOutcome outcomeOf skip (index + 1) rest

/-- A result found in a history is found in every longer one. -/
theorem nthOutcome_append_some (outcomeOf : WorkflowEvent → Option (Except JsValue JsValue))
    (skip index : Nat) (history extension : List WorkflowEvent) (found : Nat × Except JsValue JsValue)
    (here : nthOutcome outcomeOf skip index history = some found) :
    nthOutcome outcomeOf skip index (history ++ extension) = some found := by
  induction history generalizing skip index with
  | nil => simp [nthOutcome] at here
  | cons event rest ih =>
    simp only [List.cons_append, nthOutcome] at here ⊢
    split <;> simp_all

/-- A result of the extension lies behind the history. -/
theorem nthOutcome_append_none (outcomeOf : WorkflowEvent → Option (Except JsValue JsValue))
    (skip index : Nat) (history extension : List WorkflowEvent) (found : Nat × Except JsValue JsValue)
    (absent : nthOutcome outcomeOf skip index history = none) (here : nthOutcome outcomeOf skip index (history ++ extension) = some found) :
    index + history.length ≤ found.1 := by
  have later : ∀ (skip index : Nat) (events : List WorkflowEvent) (found : Nat × Except JsValue JsValue),
      nthOutcome outcomeOf skip index events = some found → index ≤ found.1 := by
    intro skip index events
    induction events generalizing skip index with
    | nil => intro found here; simp [nthOutcome] at here
    | cons event rest ih =>
      intro found here
      simp only [nthOutcome] at here
      split at here
      · cases here; exact Nat.le_refl index
      · exact Nat.le_of_succ_le (ih _ _ found here)
      · exact Nat.le_of_succ_le (ih _ _ found here)
  induction history generalizing skip index with
  | nil => simpa using later skip index extension found here
  | cons event rest ih =>
    simp only [List.cons_append, nthOutcome] at absent here
    simp only [List.length_cons]
    split at absent
    · cases absent
    all_goals
      have := ih _ _ absent (by simpa [*] using here)
      omega

/-- A result lies inside the history. -/
theorem nthOutcome_lt (outcomeOf : WorkflowEvent → Option (Except JsValue JsValue))
    (skip index : Nat) (history : List WorkflowEvent) (found : Nat × Except JsValue JsValue)
    (here : nthOutcome outcomeOf skip index history = some found) : found.1 < index + history.length := by
  induction history generalizing skip index with
  | nil => simp [nthOutcome] at here
  | cons event rest ih =>
    simp only [nthOutcome] at here
    simp only [List.length_cons]
    split at here
    · cases here; omega
    all_goals
      have := ih _ _ here
      omega

end DurableExecution.Workflow

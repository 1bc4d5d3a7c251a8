import DurableExecution.Workflow.Events

/-
This file models the matcher that compares the commands of replaying code with the
commands of the history, position by position.
-/

namespace DurableExecution.Workflow

/-- A command as the code issues it or as the history recorded it. -/
inductive CommandShape where
  | step (id stepType : String) (input : JsValue)
  | timer (id : String) (durationMs : Option JsNumber)
  | child (id workflowType : String) (input : JsValue)
  | patch (id : String)

def CommandShape.id : CommandShape → String
  | .step id _ _ => id
  | .timer id _ => id
  | .child id _ _ => id
  | .patch id => id

def CommandShape.kind : CommandShape → String
  | .step .. => "step"
  | .timer .. => "timer"
  | .child .. => "child"
  | .patch .. => "patch"

/-- The command an event records, if it records one. -/
def recordedCommandOf : WorkflowEvent → Option CommandShape
  | .stepScheduled stepId stepType input => some (.step stepId stepType input)
  | .timerStarted timerId _ durationMs => some (.timer timerId durationMs)
  | .childStarted childId workflowType input _ _ _ => some (.child childId workflowType input)
  | .patchRecorded patchId _ => some (.patch patchId)
  | _ => none

def describe : CommandShape → Description
  | .step _ stepType input => ⟨stepType, input⟩
  | .timer _ durationMs =>
    ⟨"sleep", .object [("durationMs", (durationMs.map JsValue.number).getD .undefined)]⟩
  | .child _ workflowType input => ⟨"child:" ++ workflowType, input⟩
  | .patch id => ⟨"patch", .object [("patchId", .string id)]⟩

/-- The `===` of two numbers. -/
def JsNumber.same : JsNumber → JsNumber → Bool
  | .nan, _ => false
  | .negZero, other => other == .negZero || other == .finite 0
  | .finite value, .negZero => value == 0
  | one, other => one == other

def sameCommand : (recorded issued : CommandShape) → Bool
  | .step id stepType input, .step id' stepType' input' =>
    id == id' && stepType == stepType' && sameEncoding input input'
  | .timer id durationMs, .timer id' durationMs' =>
    id == id' && match durationMs with
      | none => true
      | some recorded => durationMs'.elim false recorded.same
  | .child id workflowType input, .child id' workflowType' input' =>
    id == id' && workflowType == workflowType' && sameEncoding input input'
  | .patch id, .patch id' => id == id'
  | _, _ => false

/-- The source keeps only how many commands the code issued. The shapes stand here
so that a statement can name the command at a position. -/
structure CommandMatcher where
  recorded : List CommandShape
  issued : List CommandShape

def createCommandMatcher : CommandMatcher := ⟨[], []⟩

/-- This operation adds the commands of a newly read part of the history. -/
def CommandMatcher.record (matcher : CommandMatcher) (shapes : List CommandShape) : CommandMatcher :=
  { matcher with recorded := matcher.recorded ++ shapes }

def CommandMatcher.expected (matcher : CommandMatcher) : Option CommandShape :=
  matcher.recorded[matcher.issued.length]?

/-- Whether the history holds this command at the next position. -/
def CommandMatcher.expects (matcher : CommandMatcher) (shape : CommandShape) : Bool :=
  match matcher.expected with
  | some expected => sameCommand expected shape
  | none => false

/-- This operation registers the next command of the code. The position advances before
the mismatch is thrown; a cancelled call that does not match is not counted at all. -/
def CommandMatcher.issue (matcher : CommandMatcher) (shape : CommandShape)
    (whileCancelling : Bool) : CommandMatcher × Except JsValue Bool :=
  if whileCancelling && !matcher.expects shape then (matcher, .ok false)
  else
    let advanced := { matcher with issued := matcher.issued ++ [shape] }
    match matcher.expected with
    | none => (advanced, .ok false)
    | some expected =>
      if sameCommand expected shape then (advanced, .ok true)
      else (advanced, .error (nonDeterminismError shape.id (describe expected) (describe shape) none))

/-- The error for the first recorded command that the code has not issued. -/
def CommandMatcher.assertAllIssued (matcher : CommandMatcher) : Option JsValue :=
  match matcher.expected with
  | none => none
  | some missing => some (nonDeterminismError missing.id (describe missing) ⟨"nothing", .undefined⟩
      (some ("non-deterministic replay: history recorded " ++ missing.kind ++ " \"" ++ missing.id ++
        "\" at position " ++ toString (matcher.issued.length + 1) ++
        ", but the workflow code did not issue it")))

section Facts

variable (matcher : CommandMatcher) (shape : CommandShape)

theorem JsNumber.same_refl {number : JsNumber} (valid : number.sleepMs.isSome) : number.same number = true := by
  cases number <;> simp_all [JsNumber.same, JsNumber.sleepMs]

@[simp] theorem CommandMatcher.issue_recorded (whileCancelling : Bool) :
    (matcher.issue shape whileCancelling).1.recorded = matcher.recorded := by
  unfold issue
  split
  · rfl
  · cases matcher.expected with
    | none => rfl
    | some expected => dsimp only; split <;> rfl

/-- Outside a cancellation every call is counted. -/
@[simp] theorem CommandMatcher.issue_issued : (matcher.issue shape false).1.issued = matcher.issued ++ [shape] := by
  simp only [issue, Bool.false_and, Bool.false_eq_true, ↓reduceIte]
  cases matcher.expected with
  | none => rfl
  | some expected => dsimp only; split <;> rfl

theorem CommandMatcher.issue_new (absent : matcher.expected = none) :
    matcher.issue shape false = ({ matcher with issued := matcher.issued ++ [shape] }, .ok false) := by
  simp [issue, absent]

/-- A cancelled call that is not the next recorded command is left out. -/
theorem CommandMatcher.issue_skipped (unexpected : matcher.expects shape = false) : matcher.issue shape true = (matcher, .ok false) := by
  simp [issue, unexpected]

theorem CommandMatcher.issue_matched (expected : CommandShape)
    (found : matcher.expected = some expected) (same : sameCommand expected shape = true)
    (whileCancelling : Bool) :
    matcher.issue shape whileCancelling =
      ({ matcher with issued := matcher.issued ++ [shape] }, .ok true) := by
  simp [issue, expects, found, same]

theorem CommandMatcher.assertAllIssued_iff : matcher.assertAllIssued = none ↔ matcher.recorded.length ≤ matcher.issued.length := by
  unfold assertAllIssued expected
  cases found : matcher.recorded[matcher.issued.length]? with
  | none => simpa using List.getElem?_eq_none_iff.mp found
  | some missing =>
    have inside := (List.getElem?_eq_some_iff.mp found).1
    simp only [reduceCtorEq, false_iff, Nat.not_le]
    exact inside

end Facts

end DurableExecution.Workflow

import DurableExecution.Workflow.Values

/-
This file models the errors of the workflow engine and the recorded form in which
failure events keep them.
-/

namespace DurableExecution.Workflow

open EventLoop

/-- The error a failure event keeps. A message that encodes to nothing is `none`. -/
inductive RecordedError where
  | mk (name : String) (message : Option String) (details : Option JsValue)
      (cause : Option RecordedError)

/-- Whether the decision cannot be trusted, rather than the workflow failing. -/
def isIntegrityError : JsValue → Bool
  | .error .plain .. => false
  | .error .. => true
  | _ => false

def isError : JsValue → Bool
  | .error .. => true
  | _ => false

def plainError (name message : String) : JsValue := .error .plain name message [] .undefined .undefined

/-- The shape of a command as an error shows it. -/
structure Description where
  stepType : String
  input : JsValue

def Description.value (description : Description) : JsValue :=
  .object [("stepType", .string description.stepType), ("input", description.input)]

def Description.inputText (description : Description) : String :=
  description.input.stringify.getD "undefined"

def nonDeterminismError (stepId : String) (expected found : Description)
    (detail : Option String) : JsValue :=
  let message := detail.getD
    ("non-deterministic replay at \"" ++ stepId ++ "\": history recorded step type \"" ++
      expected.stepType ++ "\" with input " ++ expected.inputText ++
      ", but the workflow code now calls step type \"" ++ found.stepType ++ "\" with input " ++
      found.inputText)
  .error .nonDeterminism "NonDeterminismError" message
    [("stepId", .string stepId), ("expected", expected.value), ("found", found.value)]
    .undefined .undefined

def cancelledError : JsValue := plainError "CancelledError" "the workflow run was cancelled"

def childLimitExceededError (limit : Nat) : JsValue :=
  .error .plain "ChildLimitExceededError"
    ("a workflow run may start at most " ++ toString limit ++ " child workflows")
    [("limit", .number (.finite limit))] .undefined .undefined

def versionMismatchError (patchIds recordedBy : List String) (buildId : Option String) : JsValue :=
  let quotedIds := patchIds.map fun id => "\"" ++ id ++ "\""
  let builds := if recordedBy.isEmpty then "unknown" else ", ".intercalate recordedBy
  .error .versionMismatch "VersionMismatchError"
    ("version mismatch: history records patch " ++ ", ".intercalate quotedIds ++
      " (decided by build " ++ builds ++ ") that the workflow code of build " ++
      buildId.getD "unknown" ++ " never asks about")
    [("patchIds", .array (patchIds.map .string)), ("recordedBy", .array (recordedBy.map .string)),
      ("buildId", (buildId.map JsValue.string).getD .undefined)]
    .undefined .undefined

def messageOf : JsValue → String
  | .error _ _ message .. => message
  | _ => ""

def stepFailedError (stepId stepType : String) (cause : JsValue) : JsValue :=
  .error .plain "StepFailedError"
    ("step \"" ++ stepId ++ "\" (" ++ stepType ++ ") failed after exhausting its retries: " ++
      messageOf cause)
    [("stepId", .string stepId), ("stepType", .string stepType)] .undefined cause

def invalidSleepDurationError (durationMs : JsNumber) : JsValue :=
  .error .plain "InvalidSleepDurationError"
    ("sleep duration must be a finite, non-negative number of milliseconds, got " ++ durationMs.text)
    [("durationMs", .number durationMs)] .undefined .undefined

/-- The milliseconds of a sleep that is finite and not negative. -/
def JsNumber.sleepMs : JsNumber → Option Rat
  | .finite value => if 0 ≤ value then some value else none
  | .negZero => some 0
  | _ => none

/-- What `toISOString` throws on a date out of range. -/
def invalidTimeError : JsValue := plainError "RangeError" "Invalid time value"

mutual

/-- `String(value)`; a date shows its ISO form. -/
def JsValue.toText : JsValue → String
  | .undefined => "undefined"
  | .null => "null"
  | .bool value => if value then "true" else "false"
  | .number value => value.text
  | .string value => value
  | .date value => value.toISOString
  | .array items => itemsToText items
  | .object _ => "[object Object]"
  | .promise _ => "[object Promise]"
  | .error _ name message _ _ _ => name ++ ": " ++ message

def itemsToText : List JsValue → String
  | [] => ""
  | [item] => item.itemText
  | item :: rest => item.itemText ++ "," ++ itemsToText rest

/-- `null` and `undefined` leave an array's text empty. -/
def JsValue.itemText : JsValue → String
  | .undefined => ""
  | .null => ""
  | .bool value => if value then "true" else "false"
  | .number value => value.text
  | .string value => value
  | .date value => value.toISOString
  | .array items => itemsToText items
  | .object _ => "[object Object]"
  | .promise _ => "[object Promise]"
  | .error _ name message _ _ _ => name ++ ": " ++ message

end

/-- This function normalizes anything a handler rejected with into an error. -/
def toError (reason : JsValue) : JsValue :=
  if isError reason then reason else plainError "Error" reason.toText

def maxCauseDepth : Nat := 5

/-- The serializable own properties of an error; the reserved keys are not among `own`. Assigning
the key `__proto__` adds no property. -/
def collectDetails (own : List (String × JsValue)) : Option JsValue :=
  match (jsonFields own).filter fun field => field.1 != "__proto__" with
  | [] => none
  | details => some (.object details)

def toMessage : JsValue → Option String
  | .error _ _ message .. => some message
  | .string text => some text
  | reason => reason.stringify

/-- `serializeAtDepth` without the stack; `room` is what the depth limit leaves. -/
def serializeWithin (room : Nat) : JsValue → RecordedError
  | .error _ name message own _ cause =>
    let recordedCause := match cause, room with
      | .undefined, _ => none
      | _, 0 => none
      | _, room + 1 => some (serializeWithin room cause)
    .mk name (some message) (collectDetails own) recordedCause
  | reason => .mk "Error" (toMessage reason) none none

/-- The form of an error that failure events keep. -/
def toRecordedError (reason : JsValue) : RecordedError := serializeWithin maxCauseDepth reason

/-- This function rebuilds an error; its details come back hidden from enumeration, and
`new Error(undefined)` has an empty message. -/
def deserializeError : RecordedError → JsValue
  | .mk name message details cause =>
    .error .plain name (message.getD "") [] (details.getD .undefined)
      (match cause with
      | some inner => deserializeError inner
      | none => .undefined)

def reconstructError (error : RecordedError) : JsValue := deserializeError error

end DurableExecution.Workflow

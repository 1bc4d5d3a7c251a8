import Mathlib.Order.Iterate
import DurableExecution.Workflow.Errors

/-
This file sends errors through their recorded form and back, any number of times, and says which
errors come through unchanged.
-/

namespace DurableExecution.Workflow

section Chains

/-- The length of an error's chain of causes. -/
def causeDepth : JsValue → Nat
  | .error _ _ _ _ _ .undefined => 0
  | .error _ _ _ _ _ cause => causeDepth cause + 1
  | _ => 0

/-- No error of the chain has own properties that its recorded form keeps. -/
def DetailFree : JsValue → Prop
  | .error _ _ _ own _ cause => collectDetails own = none ∧ DetailFree cause
  | _ => True

/-- The number of causes that a recorded error holds. -/
def RecordedError.causes : RecordedError → Nat
  | .mk _ _ _ none => 0
  | .mk _ _ _ (some inner) => inner.causes + 1

/-- What is left of a recorded error after a hop: its names and messages. -/
def RecordedError.bared : RecordedError → RecordedError
  | .mk name message _ none => .mk name (some (message.getD "")) none none
  | .mk name message _ (some inner) => .mk name (some (message.getD "")) none (some inner.bared)

/-- One hop of an error: it is read from the log, thrown again and recorded. -/
def hop (recorded : RecordedError) : RecordedError := toRecordedError (deserializeError recorded)

end Chains

section Hops

variable {kind : ErrorKind} {name message : String} {own : List (String × JsValue)} {details cause : JsValue}

theorem serializeWithin_last (room : Nat) : serializeWithin room (.error kind name message own details .undefined) =
    .mk name (some message) (collectDetails own) none := by
  rw [serializeWithin]

theorem serializeWithin_next (room : Nat) (caused : cause ≠ .undefined) :
    serializeWithin (room + 1) (.error kind name message own details cause) =
      .mk name (some message) (collectDetails own) (some (serializeWithin room cause)) := by
  rw [serializeWithin]
  exact caused

theorem causeDepth_next (caused : cause ≠ .undefined) : causeDepth (.error kind name message own details cause) = causeDepth cause + 1 := by
  rw [causeDepth]
  exact caused

theorem serializeWithin_causes (room : Nat) (reason : JsValue) : (serializeWithin room reason).causes ≤ room := by
  induction room generalizing reason with
  | zero =>
    cases reason with
    | error kind name message own details cause => cases cause <;> exact Nat.le_refl 0
    | _ => exact Nat.le_refl 0
  | succ room ih =>
    cases reason with
    | error kind name message own details cause =>
      by_cases caused : cause = .undefined
      · rw [caused, serializeWithin_last]
        exact Nat.zero_le _
      · rw [serializeWithin_next room caused]
        exact Nat.succ_le_succ (ih cause)
    | _ => exact Nat.zero_le _

theorem deserializeError_caused (recorded : RecordedError) : deserializeError recorded ≠ .undefined := by
  obtain ⟨name, message, details, cause⟩ := recorded
  cases cause <;> exact JsValue.noConfusion

/-- A hop keeps the names and messages of the chain, and no details. -/
theorem serializeWithin_deserialized (room : Nat) (recorded : RecordedError) (within : recorded.causes ≤ room) :
    serializeWithin room (deserializeError recorded) = recorded.bared := by
  induction room generalizing recorded with
  | zero =>
    obtain ⟨name, message, details, cause⟩ := recorded
    cases cause with
    | none => rfl
    | some inner => exact absurd within (Nat.not_succ_le_zero _)
  | succ room ih =>
    obtain ⟨name, message, details, cause⟩ := recorded
    cases cause with
    | none => rfl
    | some inner =>
      rw [deserializeError, serializeWithin_next room (deserializeError_caused inner), ih inner (Nat.le_of_succ_le_succ within)]
      rfl

theorem bared_causes (recorded : RecordedError) : recorded.bared.causes = recorded.causes := by
  induction recorded using RecordedError.bared.induct with
  | case1 => rfl
  | case2 name message details inner ih => exact congrArg (· + 1) ih

theorem bared_bared (recorded : RecordedError) : recorded.bared.bared = recorded.bared := by
  induction recorded using RecordedError.bared.induct with
  | case1 => rfl
  | case2 name message details inner ih =>
    rw [RecordedError.bared, RecordedError.bared, ih]
    rfl

theorem hop_bared {recorded : RecordedError} (within : recorded.causes ≤ maxCauseDepth) : hop recorded = recorded.bared :=
  serializeWithin_deserialized maxCauseDepth recorded within

/-- After the first hop nothing changes any more. -/
theorem hops_bared {recorded : RecordedError} (within : recorded.causes ≤ maxCauseDepth) (more : Nat) :
    hop^[more + 1] recorded = recorded.bared := by
  rw [Function.iterate_succ_apply, hop_bared within]
  refine Function.iterate_fixed ?_ more
  rw [hop_bared (bared_causes recorded ▸ within), bared_bared]

/-- The recorded form of an error holds no details exactly when none of its chain has any. -/
theorem bared_iff (room : Nat) (reason : JsValue) (within : causeDepth reason ≤ room) (something : reason ≠ .undefined) :
    (serializeWithin room reason).bared = serializeWithin room reason ↔ DetailFree reason := by
  induction room generalizing reason with
  | zero =>
    cases reason with
    | error kind name message own details cause =>
      by_cases caused : cause = .undefined
      · rw [caused, serializeWithin_last]
        simp only [RecordedError.bared, DetailFree, and_true, Option.getD_some, RecordedError.mk.injEq, true_and]
        exact eq_comm
      · rw [causeDepth_next caused] at within
        exact absurd within (Nat.not_succ_le_zero _)
    | undefined => exact absurd rfl something
    | number number => exact iff_of_true (by cases number <;> rfl) trivial
    | _ => exact iff_of_true rfl trivial
  | succ room ih =>
    cases reason with
    | error kind name message own details cause =>
      by_cases caused : cause = .undefined
      · rw [caused, serializeWithin_last]
        simp only [RecordedError.bared, DetailFree, and_true, Option.getD_some, RecordedError.mk.injEq, true_and]
        exact eq_comm
      · rw [causeDepth_next caused] at within
        rw [serializeWithin_next room caused, DetailFree, ← ih cause (Nat.le_of_succ_le_succ within) caused]
        simp only [RecordedError.bared, Option.getD_some, RecordedError.mk.injEq, true_and, Option.some.injEq]
        exact and_congr_left' eq_comm
    | undefined => exact absurd rfl something
    | number number => exact iff_of_true (by cases number <;> rfl) trivial
    | _ => exact iff_of_true rfl trivial

/-- An error whose chain the serialiser does not cut comes through any number of hops exactly when
its own properties and those of its causes leave no details in the recorded form. -/
theorem errors_survive_iff (error : JsValue) (thrown : isError error = true) (shallow : causeDepth error ≤ maxCauseDepth) :
    (∀ hops, hop^[hops] (toRecordedError error) = toRecordedError error) ↔ DetailFree error := by
  have something : error ≠ .undefined := by
    rintro rfl
    cases thrown
  have within : (toRecordedError error).causes ≤ maxCauseDepth := serializeWithin_causes maxCauseDepth error
  rw [← bared_iff maxCauseDepth error shallow something]
  constructor
  · intro survives
    exact (hop_bared within).symm.trans (survives 1)
  · intro unchanged hops
    cases hops with
    | zero => rfl
    | succ hops => exact (hops_bared within hops).trans unchanged

/-- An error with a property of its own. -/
def cardDeclined : JsValue :=
  .error .plain "CardDeclinedError" "card declined" [("cardId", .string "card-1")] .undefined .undefined

/-- The number of the card is lost when the error is recorded again. -/
theorem details_lost : ¬ ∀ error, isError error = true → causeDepth error ≤ maxCauseDepth →
    hop (toRecordedError error) = toRecordedError error := by
  intro survives
  have kept := survives cardDeclined rfl (Nat.zero_le _)
  cases kept

/-- A chain of plain errors comes through. -/
theorem errors_survive_iff_plain :
    hop^[4] (toRecordedError (.error .plain "Error" "request failed" [] .undefined (plainError "Error" "socket closed"))) =
      toRecordedError (.error .plain "Error" "request failed" [] .undefined (plainError "Error" "socket closed")) :=
  (errors_survive_iff (.error .plain "Error" "request failed" [] .undefined (plainError "Error" "socket closed")) rfl (by decide)).mpr
    ⟨rfl, rfl, trivial⟩ 4

end Hops

end DurableExecution.Workflow

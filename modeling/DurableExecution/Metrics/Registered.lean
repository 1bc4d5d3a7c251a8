import Mathlib.Data.List.Induction
import DurableExecution.Metrics.RoundTrip

/-
This file shows what the calls of a registry leave in it: samples that can be read, and buckets that count the observations.
-/

namespace DurableExecution.Metrics

open DurableExecution.Order Workflow

section Built

variable {registry next : Registry} {operation : Operation} {operations : List Operation} {metric after : Metric} {name : Text}

/-- The number of a call is one that JavaScript has. -/
def Operation.IsNumber : Operation → Prop
  | .inc _ _ value | .set _ _ value | .observe _ _ value => Metrics.IsNumber value
  | _ => True

/-- The ways in which a call changes a registry: a new family, or an update of one that is there. -/
inductive Performed (registry : Registry) (operation : Operation) (next : Registry) : Prop
  | registered (name : Text) (family : Family) : validName name = true → name ∉ registry.keys → family.metric.Formed →
      (∀ bounds series, family.metric = .histogram bounds series → series = .empty) →
      (∀ name' labels value, operation ≠ .observe name' labels value) →
      next = registry.set name family → Performed registry operation next
  | updated (family : Family) (metric : Metric) : registry.get operation.name = some family →
      family.metric.update operation = some metric → next = registry.set operation.name { family with metric } →
      Performed registry operation next

theorem register_performed {family : Family} (done : register registry name family = some next)
    (fresh : family.metric.Formed) (empty : ∀ bounds series, family.metric = .histogram bounds series → series = .empty)
    (other : ∀ name' labels value, operation ≠ .observe name' labels value) : Performed registry operation next := by
  unfold register at done
  split at done
  · cases done
  · next valid =>
      split at done
      · cases done
      · next absent =>
          cases done
          exact .registered name family (Bool.eq_true_of_not_eq_false valid) absent fresh empty other rfl

theorem perform_performed (done : perform registry operation = some next) : Performed registry operation next := by
  have updates (changes : perform registry operation = (registry.get operation.name).bind fun family =>
      (family.metric.update operation).map fun metric => registry.set operation.name { family with metric }) :
      Performed registry operation next := by
    rw [changes] at done
    obtain ⟨family, found, updated⟩ := Option.bind_eq_some_iff.mp done
    obtain ⟨metric, changed, rfl⟩ := Option.map_eq_some_iff.mp updated
    exact .updated family metric found changed rfl
  cases operation with
  | counter name help | gauge name help => exact register_performed done (fun _ listed => absurd listed List.not_mem_nil) nofun nofun
  | histogram name help buckets =>
    refine register_performed done (fun _ listed => absurd listed List.not_mem_nil) (fun bounds series same => ?_) nofun
    cases same
    rfl
  | inc name | set name | clear name | observe name =>
    refine updates ?_
    simp only [perform, Operation.name]
    cases registry.get name <;> rfl

theorem values_formed {values : InsertionMap Key JsNumber} (formed : ∀ entry ∈ values.entries, KeyFormed entry.1 ∧ IsNumber entry.2)
    {labels : Labels} {key : Key} (given : keyOf labels = some key) {value : JsNumber} (isNumber : IsNumber value) :
    ∀ entry ∈ (values.set key value).entries, KeyFormed entry.1 ∧ IsNumber entry.2 := by
  intro entry listed
  rcases InsertionMap.mem_set.mp listed with rfl | ⟨old, -⟩
  · exact ⟨keyOf_formed given, isNumber⟩
  · exact formed entry old

theorem zero_isNumber : IsNumber (.finite 0) := one_dvd _

theorem Metric.Formed.update (formed : metric.Formed) (isNumber : operation.IsNumber) (changed : metric.update operation = some after) :
    after.Formed := by
  cases operation with
  | counter | gauge | histogram => cases changed
  | inc at' labels amount =>
    cases metric with
    | counter values =>
      rw [Metric.update] at changed
      split at changed
      · cases changed
      · obtain ⟨key, given, rfl⟩ := Option.map_eq_some_iff.mp changed
        refine values_formed formed given (isNumber_plus ?_ isNumber)
        cases found : values.get key with
        | none => exact zero_isNumber
        | some value => exact (formed (key, value) (InsertionMap.get_eq_some.mp found)).2
    | gauge | histogram => cases changed
  | set at' labels value =>
    cases metric with
    | counter values | gauge values =>
      obtain ⟨key, given, rfl⟩ := Option.map_eq_some_iff.mp changed
      exact values_formed formed given isNumber
    | histogram => cases changed
  | clear at' =>
    cases metric with
    | gauge values =>
      cases changed
      exact fun _ listed => absurd listed List.not_mem_nil
    | counter | histogram => cases changed
  | observe at' labels value =>
    cases metric with
    | histogram bounds series =>
      obtain ⟨key, given, rfl⟩ := Option.map_eq_some_iff.mp changed
      intro entry listed
      rcases InsertionMap.mem_set.mp listed with rfl | ⟨old, -⟩
      · refine ⟨keyOf_formed given, isNumber_plus ?_ isNumber⟩
        cases found : series.get key with
        | none => exact zero_isNumber
        | some held => exact (formed (key, held) (InsertionMap.get_eq_some.mp found)).2
      · exact formed entry old
    | counter | gauge => cases changed

end Built

end DurableExecution.Metrics

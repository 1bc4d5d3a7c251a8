import Mathlib.Data.List.Infix
import DurableExecution.Metrics.SampleText

/-
This file shows for which registries the parser reads the rendered text back, and what the buckets of a histogram count.
-/

namespace DurableExecution.Metrics

open DurableExecution.Order Workflow

section Text

variable {registry : Registry} {parsed next : ParsedMetrics} {line fault : Text} {lines : List Text}

end Text

section Labels

variable {label : Text × Text} {entries key : Key}

/-- A label that the parser reads back. -/
structure Clean (label : Text × Text) : Prop where
  name : label.1 ≠ protoName
  value : ¬['\\', 'n'] <:+: label.2
  ends : label.2.any isBareEnd = false

/-- The labels as an object, where a later value takes the place of an earlier one. -/
def labelsOf (entries : Key) : Labels := entries.foldl (fun labels label => labels.set label.1 label.2) .empty

/-- A sample as it was registered. -/
def Sample.expected (sample : Sample) : ParsedSample := ⟨sample.name, labelsOf sample.entries, plain sample.value⟩

theorem readLabels_clean (entries : Key) (clean : ∀ label ∈ entries, Clean label) : entries.foldl readLabel .empty = labelsOf entries := by
  rw [labelsOf]
  refine List.foldl_ext _ _ _ fun labels label listed => ?_
  rw [readLabel, if_neg (clean label listed).name, (misread_eq_iff label.2).mpr (clean label listed).value]

end Labels

section Formed

variable {key : Key} {labels : Labels} {metric : Metric} {registry next : Registry} {operation : Operation} {name : Text}

/-- A key of valid and distinct names. -/
structure KeyFormed (key : Key) : Prop where
  valid : ∀ label ∈ key, validLabel label.1 = true
  distinct : (key.map Prod.fst).Nodup

theorem keyOf_formed (given : keyOf labels = some key) : KeyFormed key := by
  rw [keyOf] at given
  split at given
  · next valid =>
      cases given
      rw [List.all_eq_true] at valid
      have sorted := List.perm_insertionSort (fun one two : Text × Text => inOrder one.1 two.1 = true) labels.entries
      exact ⟨fun label listed => valid _ (List.mem_map_of_mem (sorted.subset listed)),
        (sorted.map Prod.fst).nodup_iff.mpr labels.distinct⟩
  · cases given

theorem isNumber_plus {one two : JsNumber} (first : IsNumber one) (second : IsNumber two) : IsNumber (plus one two) := by
  have sum {left right : Rat} (first : IsDecimal left) (second : IsDecimal right) : IsDecimal (left + right) :=
    (Rat.add_den_dvd_lcm left right).trans (Nat.lcm_dvd first second)
  have zero : IsDecimal 0 := one_dvd _
  cases one <;> cases two <;> first | trivial | exact sum first second | exact sum zero second | exact sum first zero

/-- A metric whose samples can be read. -/
def Metric.Formed : Metric → Prop
  | .counter values | .gauge values => ∀ entry ∈ values.entries, KeyFormed entry.1 ∧ IsNumber entry.2
  | .histogram _ series => ∀ entry ∈ series.entries, KeyFormed entry.1 ∧ IsNumber entry.2.sum

end Formed

end DurableExecution.Metrics

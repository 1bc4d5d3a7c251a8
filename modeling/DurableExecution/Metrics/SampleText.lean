import DurableExecution.Metrics.LabelText

/-
This file shows what the parser reads of the lines that a registry writes.
-/

namespace DurableExecution.Metrics

open DurableExecution.Order Workflow

section Numbers

variable {value : Rat} {number : JsNumber}

/-- A number that JavaScript has: its text is exact. -/
def IsNumber : JsNumber → Prop
  | .finite value => IsDecimal value
  | _ => True

/-- Both zeros have one text. -/
def plain : JsNumber → JsNumber
  | .negZero => .finite 0
  | number => number

end Numbers

section Samples

/-- A sample that is registered, with the labels as they are written. -/
structure Sample where
  name : Text
  entries : Key
  value : JsNumber

def Sample.line (sample : Sample) : Text := sampleLine sample.name sample.entries (formatNumber sample.value)

/-- What a sample's line needs to be read: names that are valid, and a number. -/
structure Sample.WellFormed (sample : Sample) : Prop where
  named : validName sample.name = true
  labelled : ∀ label ∈ sample.entries, validLabel label.1 = true
  isNumber : IsNumber sample.value

/-- A sample that the parser does not refuse. -/
def Sample.readable (sample : Sample) : Bool := !bareEnds sample.entries && decide (sample.value ≠ .negInf)

/-- What the parser reads of a sample. -/
def Sample.read (sample : Sample) : ParsedSample := ⟨sample.name, sample.entries.foldl readLabel .empty, plain sample.value⟩

end Samples

section Families

variable {name : Text}

end Families

end DurableExecution.Metrics

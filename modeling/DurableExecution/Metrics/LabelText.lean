import DurableExecution.Metrics.PrometheusText
import DurableExecution.Workflow.JsonRoundTrip

/-
This file shows what the parser reads of the labels and the numbers that a registry writes.
-/

namespace DurableExecution.Metrics

open DurableExecution.Order Workflow

section Escapes

variable {value rest : Text} {one two replacement : Char}

/-- How a label's value writes a character. -/
def escaped (character : Char) : Text :=
  if character = '\\' then ['\\', '\\']
  else if character = '\n' then ['\\', 'n']
  else if character = '"' then ['\\', '"']
  else [character]

/-- What the parser reads of a value: a backslash and an n become a backslash and a newline. -/
def misread : Text → Text
  | [] => []
  | [last] => [last]
  | first :: second :: rest =>
    if first = '\\' ∧ second = 'n' then '\\' :: '\n' :: misread rest else first :: misread (second :: rest)

/-- A value is read back when no backslash is followed by an n. -/
theorem misread_eq_iff (value : Text) : misread value = value ↔ ¬['\\', 'n'] <:+: value := by
  induction value using misread.induct with
  | case1 => simp [misread]
  | case2 last =>
    refine ⟨fun _ inside => ?_, fun _ => rfl⟩
    have longer : 2 ≤ 1 := inside.length_le
    exact absurd longer (by decide)
  | case3 first second rest both ih =>
    obtain ⟨rfl, rfl⟩ := both
    rw [misread, if_pos ⟨rfl, rfl⟩]
    refine ⟨fun same => ?_, fun apart => absurd ⟨[], rest, rfl⟩ apart⟩
    rw [List.cons.injEq, List.cons.injEq] at same
    exact absurd same.2.1 (by decide)
  | case4 first second rest not ih =>
    have shorter : ['\\', 'n'] <:+: first :: second :: rest ↔ _ := List.infix_cons_iff
    rw [misread, if_neg not, List.cons.injEq, ih, shorter]
    constructor
    · rintro ⟨-, apart⟩ (start | inside)
      · rw [List.cons_prefix_cons, List.cons_prefix_cons] at start
        exact not ⟨start.1.symm, start.2.1.symm⟩
      · exact apart inside
    · exact fun apart => ⟨rfl, fun inside => apart (.inr inside)⟩

end Escapes

section Labels

variable {value rest name : Text}

/-- What ends a line but is not escaped. -/
def isBareEnd (character : Char) : Bool := isLineEnd character && character != '\n'

/-- What the parser reads of a label. -/
def readLabel (labels : Labels) (label : Text × Text) : Labels :=
  if label.1 = protoName then labels else labels.set label.1 (misread label.2)

/-- The labels cannot be matched when one has the end of a line in its value. -/
def bareEnds (entries : Key) : Bool := entries.any fun label => label.2.any isBareEnd

end Labels

section Lines

variable {name value : Text} {entries : Key}

end Lines

end DurableExecution.Metrics
